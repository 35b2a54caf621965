import Gatehouse.Proofs.Digest.Header
import Gatehouse.Table
import Mathlib.Data.List.Nodup
import Mathlib.Data.List.Perm.Basic

/-!
# The texts that are Digest headers

What a Digest header is read as depends only on the recognised fields in it, each of which is to
occur once: not on their order, not on the blanks around them, not on the way in which their values
are written, and not on what stands between them without being recognised.

- `Reading`: what recognised fields are to be read as, told without the reader: as credentials that
  have exactly these fields, or as one of three refusals.
- `Credentials.exists_perm_given`: recognised fields among which no mandatory one is missing are
  the fields of some credentials.
- `header_exact`: every header of legible elements is read as it is to be.
-/

namespace Gatehouse.Digest

/-! ## Names -/

/-- The fields that all credentials have. -/
def mandatoryNames : List String :=
  ["username", "realm", "nonce", "uri", "response"]

/-- The fields that credentials with protection have as well. -/
def protectionNames : List String :=
  ["nc", "cnonce"]

/-- The fields that are recognised. -/
def knownNames : List String :=
  mandatoryNames ++ "qop" :: protectionNames

/-- The recognised ones among the given fields. -/
def recognised (given : List (String × String)) : List (String × String) :=
  given.filter fun field => field.1 ∈ knownNames

/-- Whether a value is given for a name. -/
def Mentions (given : List (String × String)) (name : String) : Prop :=
  name ∈ given.map Prod.fst

instance (given : List (String × String)) (name : String) : Decidable (Mentions given name) :=
  inferInstanceAs (Decidable (name ∈ given.map Prod.fst))

/-- Whether a value is given for every name that must have one. -/
def Complete (given : List (String × String)) : Prop :=
  ∀ name ∈ mandatoryNames, Mentions given name

instance (given : List (String × String)) : Decidable (Complete given) :=
  inferInstanceAs (Decidable (∀ name ∈ mandatoryNames, Mentions given name))

namespace Credentials

/-- The names and values of credentials. -/
def given (c : Credentials) : List (String × String) :=
  c.written.map fun f => (f.name, f.value)

end Credentials

/-- What recognised fields are to be read as. -/
inductive Reading (given : List (String × String)) : Except AuthError Credentials → Prop where
  | credentials {c : Credentials} (h : given.Perm c.given) (hsupported : c.Supported) :
      Reading given (.ok c)
  | missingField {name : String} (hname : name ∈ mandatoryNames) (h : ¬Mentions given name) :
      Reading given (.error (.malformedHeader .missingDigestField))
  | missingProtectionField {name : String} (hcomplete : Complete given)
      (hqop : ("qop", "auth") ∈ given) (hname : name ∈ protectionNames) (h : ¬Mentions given name) :
      Reading given (.error (.malformedHeader .missingProtectionField))
  | unsupportedProtection {qop : String} (hcomplete : Complete given) (hqop : ("qop", qop) ∈ given)
      (h : qop ≠ "auth") : Reading given (.error (.malformedHeader (.unsupportedProtection qop)))

/-! ## Values -/

section Values

variable {name value : String} {given given' : List (String × String)}

theorem lastValue_eq_find (name : String) (given : List (String × String)) :
    lastValue name given = Table.find name given.reverse := by
  unfold lastValue
  induction given.reverse with
  | nil => rfl
  | cons field rest ih =>
    rw [List.find?_cons, Table.find, ← ih]
    by_cases hname : field.1 = name
    · simp [hname]
    · simp [beq_eq_false_iff_ne.2 hname, hname]

/-- If every name occurs once, the last value of a name is the one that is given. -/
theorem lastValue_eq_some_iff (honce : (given.map Prod.fst).Nodup) :
    lastValue name given = some value ↔ (name, value) ∈ given := by
  have hreverse : (given.reverse.map Prod.fst).Nodup := by
    rw [List.map_reverse]
    exact List.nodup_reverse.2 honce
  rw [lastValue_eq_find, Table.find_eq_some_iff hreverse, List.mem_reverse]

theorem lastValue_eq_none_iff : lastValue name given = none ↔ ¬Mentions given name := by
  simp only [lastValue, Mentions, Option.map_eq_none_iff, List.find?_eq_none, List.mem_reverse,
    beq_iff_eq, List.mem_map, not_exists, not_and]

theorem isSome_lastValue_iff : (lastValue name given).isSome ↔ Mentions given name := by
  rw [← Option.ne_none_iff_isSome, ne_eq, lastValue_eq_none_iff, not_not]

/-- The order does not matter if every name occurs once. -/
theorem lastValue_of_perm (h : given.Perm given') (honce : (given.map Prod.fst).Nodup)
    (name : String) : lastValue name given = lastValue name given' := by
  ext value
  rw [lastValue_eq_some_iff honce, lastValue_eq_some_iff ((h.map _).nodup honce), h.mem_iff]

theorem lastValue_recognised (hname : name ∈ knownNames) :
    lastValue name (recognised given) = lastValue name given := by
  unfold lastValue recognised
  rw [← List.filter_reverse, List.find?_filter]
  congr 2
  funext field
  by_cases hfield : field.1 = name
  · simp [hfield, hname]
  · simp [hfield]

end Values

/-! ## Fields of credentials -/

section Fields

variable {given given' : List (String × String)}

/-- Only recognised fields matter. -/
theorem ofFields_recognised (given : List (String × String)) :
    ofFields (recognised given) = ofFields given := by
  have hvalue : ∀ name ∈ knownNames, lastValue name (recognised given) = lastValue name given :=
    fun _ hname => lastValue_recognised hname
  simp only [knownNames, mandatoryNames, protectionNames, List.cons_append, List.nil_append,
    List.forall_mem_cons] at hvalue
  obtain ⟨husername, hrealm, hnonce, huri, hresponse, hqop, hnc, hcnonce, -⟩ := hvalue
  unfold ofFields
  rw [husername, hrealm, hnonce, huri, hresponse, hqop, hnc, hcnonce]

theorem ofFields_of_perm (h : given.Perm given') (honce : (given.map Prod.fst).Nodup) :
    ofFields given = ofFields given' := by
  unfold ofFields
  simp only [lastValue_of_perm h honce]

/-- Without a mandatory field there are no credentials. -/
theorem ofFields_of_not_complete (h : ¬Complete given) :
    ofFields given = .error (.malformedHeader .missingDigestField) := by
  unfold ofFields
  split
  · next husername hrealm hnonce huri hresponse =>
    refine absurd ?_ h
    have hnames : ∀ {name value}, lastValue name given = some value → Mentions given name :=
      fun hvalue => isSome_lastValue_iff.1 (Option.isSome_of_eq_some hvalue)
    simp only [Complete, mandatoryNames, List.forall_mem_cons]
    exact ⟨hnames husername, hnames hrealm, hnames hnonce, hnames huri, hnames hresponse, nofun⟩
  · rfl

namespace Credentials

theorem given_eq (c : Credentials) :
    c.given = [("username", c.username), ("realm", c.realm), ("nonce", c.nonce), ("uri", c.uri),
        ("response", c.response)]
      ++ (c.qop.map (("qop", ·))).toList ++ (c.nc.map (("nc", ·))).toList
      ++ (c.cnonce.map (("cnonce", ·))).toList := by
  obtain ⟨username, realm, nonce, uri, response, qop, nc, cnonce⟩ := c
  cases qop <;> cases nc <;> cases cnonce <;> rfl

theorem nodup_given (c : Credentials) : (c.given.map Prod.fst).Nodup := by
  obtain ⟨username, realm, nonce, uri, response, qop, nc, cnonce⟩ := c
  cases qop <;> cases nc <;> cases cnonce <;> simp [given_eq]

theorem qop_mem_given {c : Credentials} {qop : String} :
    ("qop", qop) ∈ c.given ↔ c.qop = some qop := by
  simp [given_eq]

/-- The fields that protection needs. -/
theorem mentions_protection {c : Credentials} :
    (∀ name ∈ protectionNames, Mentions c.given name) ↔ c.nc.isSome ∧ c.cnonce.isSome := by
  simp [protectionNames, Mentions, given_eq, Option.isSome_iff_exists]

theorem mem_given {c : Credentials} {name value : String} :
    (name, value) ∈ c.given ↔
      name = "username" ∧ c.username = value ∨ name = "realm" ∧ c.realm = value ∨
      name = "nonce" ∧ c.nonce = value ∨ name = "uri" ∧ c.uri = value ∨
      name = "response" ∧ c.response = value ∨ name = "qop" ∧ c.qop = some value ∨
      name = "nc" ∧ c.nc = some value ∨ name = "cnonce" ∧ c.cnonce = some value := by
  simp [given_eq, eq_comm, and_comm]

/-- Recognised fields among which no mandatory one is missing are those of some credentials. -/
theorem exists_perm_given (honce : (given.map Prod.fst).Nodup) (hcomplete : Complete given)
    (hknown : ∀ field ∈ given, field.1 ∈ knownNames) : ∃ c : Credentials, given.Perm c.given := by
  have hsome : ∀ name ∈ mandatoryNames, ∃ value, lastValue name given = some value :=
    fun name hname => Option.isSome_iff_exists.1 (isSome_lastValue_iff.2 (hcomplete name hname))
  simp only [mandatoryNames, List.forall_mem_cons] at hsome
  obtain ⟨⟨username, husername⟩, ⟨realm, hrealm⟩, ⟨nonce, hnonce⟩, ⟨uri, huri⟩,
    ⟨response, hresponse⟩, -⟩ := hsome
  let c : Credentials :=
    { username, realm, nonce, uri, response
      qop := lastValue "qop" given
      nc := lastValue "nc" given
      cnonce := lastValue "cnonce" given }
  refine ⟨c, (List.perm_ext_iff_of_nodup honce.of_map c.nodup_given.of_map).2 ?_⟩
  rintro ⟨name, value⟩
  rw [mem_given, ← lastValue_eq_some_iff honce]
  constructor
  · intro hvalue
    have hname := hknown _ ((lastValue_eq_some_iff honce).1 hvalue)
    simp only [knownNames, mandatoryNames, protectionNames, List.cons_append, List.nil_append,
      List.mem_cons, List.not_mem_nil, or_false] at hname
    rcases hname with rfl | rfl | rfl | rfl | rfl | rfl | rfl | rfl <;>
      simpa [c, husername, hrealm, hnonce, huri, hresponse] using hvalue
  · rintro (⟨rfl, rfl⟩ | ⟨rfl, rfl⟩ | ⟨rfl, rfl⟩ | ⟨rfl, rfl⟩ | ⟨rfl, rfl⟩ | ⟨rfl, hqop⟩ |
      ⟨rfl, hnc⟩ | ⟨rfl, hcnonce⟩)
    · exact husername
    · exact hrealm
    · exact hnonce
    · exact huri
    · exact hresponse
    · exact hqop
    · exact hnc
    · exact hcnonce

end Credentials

/-- The reader of the fields of credentials checks their protection. -/
theorem ofFields_given {c : Credentials} (h : given.Perm c.given)
    (honce : (given.map Prod.fst).Nodup) : ofFields given = checkProtection c :=
  (ofFields_of_perm h honce).trans c.ofFields_written

end Fields

/-! ## Reading -/

section Reading

variable {given : List (String × String)}

/-- Reordering keeps the names that have values. -/
theorem mentions_of_perm {c : Credentials} (h : given.Perm c.given) (name : String) :
    Mentions given name ↔ Mentions c.given name :=
  (h.map _).mem_iff

/-- Protection is refused if a field is missing that it needs. -/
theorem checkProtection_of_missing {c : Credentials} {name : String} (hqop : c.qop = some "auth")
    (hname : name ∈ protectionNames) (h : ¬Mentions c.given name) :
    checkProtection c = .error (.malformedHeader .missingProtectionField) := by
  have hboth : ¬(c.nc.isSome && c.cnonce.isSome) = true :=
    fun hboth => h (Credentials.mentions_protection.2 (Bool.and_eq_true_iff.1 hboth) name hname)
  rw [checkProtection, hqop]
  dsimp only
  rw [if_pos rfl, if_neg hboth]

theorem checkProtection_of_unsupported {c : Credentials} {qop : String} (hqop : c.qop = some qop)
    (h : qop ≠ "auth") :
    checkProtection c = .error (.malformedHeader (.unsupportedProtection qop)) := by
  simp [checkProtection, hqop, h]

/-- The reader takes one of the four ways. -/
theorem reading_ofFields (honce : (given.map Prod.fst).Nodup)
    (hknown : ∀ field ∈ given, field.1 ∈ knownNames) : Reading given (ofFields given) := by
  by_cases hcomplete : Complete given
  · obtain ⟨c, hperm⟩ := Credentials.exists_perm_given honce hcomplete hknown
    rw [ofFields_given hperm honce]
    by_cases hsupported : c.Supported
    · rw [hsupported.checkProtection_eq]
      exact .credentials hperm hsupported
    · -- credentials that are not supported ask for some protection, and do not get it
      obtain ⟨hsome, hunprotected⟩ := not_or.1 hsupported
      obtain ⟨qop, hqop⟩ := Option.ne_none_iff_exists'.1 hsome
      have hmem : ("qop", qop) ∈ given := hperm.mem_iff.2 (Credentials.qop_mem_given.2 hqop)
      by_cases hauth : qop = "auth"
      · subst hauth
        have hmissing : ¬∀ name ∈ protectionNames, Mentions c.given name :=
          fun hall => hunprotected ⟨hqop, Credentials.mentions_protection.1 hall⟩
        push Not at hmissing
        obtain ⟨name, hname, hmissing⟩ := hmissing
        rw [checkProtection_of_missing hqop hname hmissing]
        exact .missingProtectionField hcomplete hmem hname
          ((mentions_of_perm hperm name).not.2 hmissing)
      · rw [checkProtection_of_unsupported hqop hauth]
        exact .unsupportedProtection hcomplete hmem hauth
  · rw [ofFields_of_not_complete hcomplete]
    simp only [Complete, not_forall] at hcomplete
    obtain ⟨name, hname, hmissing⟩ := hcomplete
    exact .missingField hname hmissing

/-- The ways exclude each other: what fields are to be read as, they are read as. -/
theorem Reading.ofFields_eq {r : Except AuthError Credentials} (h : Reading given r)
    (honce : (given.map Prod.fst).Nodup) (hknown : ∀ field ∈ given, field.1 ∈ knownNames) :
    ofFields given = r := by
  cases h with
  | credentials hperm hsupported =>
    rw [ofFields_given hperm honce, hsupported.checkProtection_eq]
  | missingField hname hmissing =>
    exact ofFields_of_not_complete fun hcomplete => hmissing (hcomplete _ hname)
  | missingProtectionField hcomplete hmem hname hmissing =>
    obtain ⟨c, hperm⟩ := Credentials.exists_perm_given honce hcomplete hknown
    have hqop := Credentials.qop_mem_given.1 (hperm.mem_iff.1 hmem)
    rw [ofFields_given hperm honce]
    exact checkProtection_of_missing hqop hname ((mentions_of_perm hperm _).not.1 hmissing)
  | unsupportedProtection hcomplete hmem hother =>
    obtain ⟨c, hperm⟩ := Credentials.exists_perm_given honce hcomplete hknown
    have hqop := Credentials.qop_mem_given.1 (hperm.mem_iff.1 hmem)
    rw [ofFields_given hperm honce]
    exact checkProtection_of_unsupported hqop hother

end Reading

/-! ## Headers -/

/-- The header of elements. -/
def header (es : List Element) : String :=
  String.ofList (scheme ++ Text.join [','] (es.map Element.render))

/-- The recognised fields among elements. -/
def recognisedIn (es : List Element) : List (String × String) :=
  recognised (es.filterMap Element.given?)

/-- A header of legible elements, in which every recognised field occurs once, is read exactly as
its recognised fields are to be read: as the credentials that have these fields, whatever their
order is and whatever else stands between them, or as the refusal of what is missing or not
supported. -/
theorem header_exact {es : List Element} (hlegible : ∀ e ∈ es, e.Legible)
    (honce : ((recognisedIn es).map Prod.fst).Nodup) (r : Except AuthError Credentials) :
    parse (header es) = r ↔ Reading (recognisedIn es) r := by
  have hparse : parse (header es) = ofFields (recognisedIn es) := by
    rw [parse, header, String.toList_ofList, Text.dropStart?_append]
    dsimp only
    rw [fields_join hlegible, recognisedIn, ofFields_recognised]
  have hknown : ∀ field ∈ recognisedIn es, field.1 ∈ knownNames :=
    fun field hfield => of_decide_eq_true (List.mem_filter.1 hfield).2
  rw [hparse]
  constructor
  · rintro rfl
    exact reading_ofFields honce hknown
  · exact fun h => h.ofFields_eq honce hknown

/-- Elements in which the fields of protected credentials stand in some order, in either style,
among others. -/
def mixedElements (qop : String) (more : List Element) : List Element :=
  [.field [' '] ⟨"response", .bare, "0123"⟩ ['\t'], .stray " auth ".toList,
    .field [] ⟨"cnonce", .quoted, "a=b, c"⟩ [], .field [' '] ⟨"qop", .quoted, qop⟩ [' ', ' '],
    .field [] ⟨"opaque", .quoted, "realm=R,"⟩ [], .field [] ⟨"uri", .bare, "/x?q=1"⟩ [],
    .field [] ⟨"realm", .quoted, " R "⟩ [], .stray [], .field [] ⟨"nonce", .bare, "Nzp4=="⟩ [],
    .field [' '] ⟨"username", .quoted, ""⟩ []] ++ more

/-- Protected credentials are read from a header in which they are mixed with other elements. They
are refused without the counter, and if they ask for another protection. -/
theorem header_exact_mixed :
    header (mixedElements "auth" [.field [] ⟨"nc", .bare, "1"⟩ []]) =
      "Digest  response=0123\t, auth ,cnonce=\"a=b, c\", qop=\"auth\"  ,opaque=\"realm=R,\"," ++
        "uri=/x?q=1,realm=\" R \",,nonce=Nzp4==, username=\"\",nc=1" ∧
    parse (header (mixedElements "auth" [.field [] ⟨"nc", .bare, "1"⟩ []])) =
      .ok ⟨"", " R ", "Nzp4==", "/x?q=1", "0123", some "auth", some "1", some "a=b, c"⟩ ∧
    parse (header (mixedElements "auth" [])) = .error (.malformedHeader .missingProtectionField) ∧
    parse (header (mixedElements "auth-int" [])) =
      .error (.malformedHeader (.unsupportedProtection "auth-int")) := by
  have hquoted : ∀ {name value before after}, Field.IsName name → '"' ∉ value.toList →
      before.all Text.isBlank = true → after.all Text.isBlank = true →
      (Element.field before ⟨name, .quoted, value⟩ after).Legible :=
    fun hname hvalue hbefore hafter => .field (.of_quoted hname hvalue)
      (List.all_eq_true.1 hbefore) (List.all_eq_true.1 hafter)
  have hbare : ∀ {name value before after}, Field.IsName name → '"' ∉ value.toList →
      Field.IsBare value → before.all Text.isBlank = true → after.all Text.isBlank = true →
      (Element.field before ⟨name, .bare, value⟩ after).Legible :=
    fun hname hvalue hshape hbefore hafter => .field (.of_bare hname ⟨hvalue, hshape⟩)
      (List.all_eq_true.1 hbefore) (List.all_eq_true.1 hafter)
  have hlegible : ∀ {qop more}, '"' ∉ qop.toList → (∀ e ∈ more, e.Legible) →
      ∀ e ∈ mixedElements qop more, e.Legible := by
    intro qop more hqop hmore
    simp only [mixedElements, List.cons_append, List.nil_append, List.forall_mem_cons]
    exact ⟨hbare (by decide) (by decide) ⟨by decide, by decide⟩ (by decide) (by decide),
      .stray (by decide) (by decide) (by decide),
      hquoted (by decide) (by decide) (by decide) (by decide),
      hquoted (by decide) hqop (by decide) (by decide),
      hquoted (by decide) (by decide) (by decide) (by decide),
      hbare (by decide) (by decide) ⟨by decide, by decide⟩ (by decide) (by decide),
      hquoted (by decide) (by decide) (by decide) (by decide),
      .stray (by decide) (by decide) (by decide),
      hbare (by decide) (by decide) ⟨by decide, by decide⟩ (by decide) (by decide),
      hquoted (by decide) (by decide) (by decide) (by decide), hmore⟩
  have hcount : (Element.field [] ⟨"nc", .bare, "1"⟩ []).Legible :=
    hbare (by decide) (by decide) ⟨by decide, by decide⟩ (by decide) (by decide)
  refine ⟨by decide +kernel, ?_, ?_, ?_⟩
  · refine (header_exact (hlegible (by decide) ?_) (by decide) _).2 (.credentials (by decide) ?_)
    · exact List.forall_mem_singleton.2 hcount
    · exact .inr ⟨rfl, rfl, rfl⟩
  · refine (header_exact (hlegible (by decide) (by simp)) (by decide) _).2 ?_
    have hmissing : "nc" ∈ protectionNames ∧
        ¬Mentions (recognisedIn (mixedElements "auth" [])) "nc" := by decide
    exact .missingProtectionField (by decide) (by decide) hmissing.1 hmissing.2
  · refine (header_exact (hlegible (by decide) (by simp)) (by decide) _).2 ?_
    exact .unsupportedProtection (by decide) (by decide) (by decide)

end Gatehouse.Digest
