import Gatehouse.Proofs.OAuth.Binding

/-!
# What is signed and what is checked

The signature of a message speaks about two sets of parameters: those of the message and those of
the query of its address. Only the first set is looked at. So an accepted message gives every
parameter of the protocol once and says one thing with it, but its query may say another thing,
and the signature covers both.

- `Unequivocal`: signed parameters that say nothing but what was checked.
- `unequivocal_append_iff`: what the query must not add, for the signed set to be unequivocal.
- `verify_readdress`: no query is ever a reason to refuse a message.
- `query_is_signed_unchecked`: what is known of the signed set of an accepted message.
- `equivocal_accepted`: an accepted message with two nonces and a wrong version.
-/

namespace Gatehouse.OAuth

namespace Message

/-- The parameters that a message must give, and that are checked. -/
def checkedNames : List String :=
  ["oauth_consumer_key", "oauth_nonce", "oauth_timestamp", "oauth_signature_method"]

/-- Signed parameters say nothing but what was checked: no parameter of the protocol occurs twice,
there is no version but the only one, and consumer, nonce, timestamp and method have no other
values. -/
structure Unequivocal (m : Message) (signed : List Param) : Prop where
  once : ((signed.map (·.name)).filter isProtocolName).Nodup
  version : ∀ p ∈ signed, p.name = "oauth_version" → p.value = OAuth.version
  checked : ∀ p ∈ signed, p.name ∈ checkedNames → m.param? p.name = some p.value

/-- Apart from signatures, a query gives no parameter of the protocol twice and none that the
message gives, and no version but the only one. -/
structure AddsNothing (m : Message) (query : List Param) : Prop where
  once : (((signedParams query).map (·.name)).filter isProtocolName).Nodup
  apart : ∀ p ∈ signedParams query, isProtocolName p.name = true → p.name ∉ m.params.map (·.name)
  version : ∀ p ∈ query, p.name = "oauth_version" → p.value = OAuth.version

variable {m : Message} {c : Claim} {query : List Param}

theorem isProtocolName_of_checked {name : String} (h : name ∈ checkedNames) :
    isProtocolName name = true := by
  have hall : ∀ name ∈ checkedNames, isProtocolName name = true := by decide
  exact hall name h

/-! ## The message's own parameters -/

theorem checkVersion_eq_ok_iff :
    m.checkVersion = .ok () ↔ ∀ v, m.param? "oauth_version" = some v → v = OAuth.version := by
  unfold checkVersion
  cases m.param? "oauth_version" with
  | none => simp
  | some v => simp

/-- What must be given is given. -/
theorem Makes.mem_names (h : m.Makes c) {name : String} (hname : name ∈ checkedNames) :
    name ∈ m.params.map (·.name) := by
  have hgiven : ∀ value, m.param? name = some value → name ∈ m.params.map (·.name) :=
    fun value hvalue => List.mem_map_of_mem
      ((param?_eq_some_iff h.unique (isProtocolName_of_checked hname)).1 hvalue)
  simp only [checkedNames, List.mem_cons, List.not_mem_nil, or_false] at hname
  obtain ⟨method, hmethod, -⟩ := h.method
  obtain ⟨timestamp, htimestamp, -⟩ := h.timestamp
  rcases hname with rfl | rfl | rfl | rfl
  · exact hgiven _ h.consumer
  · exact hgiven _ h.nonce
  · exact hgiven _ htimestamp
  · exact hgiven _ hmethod

/-- The parameters of a message that makes a claim say what the claim says. -/
theorem Makes.unequivocal (h : m.Makes c) : m.Unequivocal (signedParams m.params) where
  once := (duplicate?_eq_none_iff.1 h.unique).sublist
    ((List.filter_sublist.map _).filter _)
  version := by
    rintro ⟨name, value⟩ hp rfl
    exact checkVersion_eq_ok_iff.1 h.version value
      ((param?_eq_some_iff h.unique (by decide)).2 (List.mem_of_mem_filter hp))
  checked := by
    intro p hp hname
    exact (param?_eq_some_iff h.unique (isProtocolName_of_checked hname)).2
      (List.mem_of_mem_filter hp)

/-! ## The parameters of the query -/

theorem signedParams_append (params query : List Param) :
    signedParams (params ++ query) = signedParams params ++ signedParams query :=
  List.filter_append params query

theorem mem_signedParams {p : Param} {params : List Param} :
    p ∈ signedParams params ↔ p ∈ params ∧ p.name ≠ signatureName := by
  simp [signedParams]

/-- The protocol names among the signed parameters of a message. -/
theorem mem_protocolNames {name : String} {params : List Param} :
    name ∈ ((signedParams params).map (·.name)).filter isProtocolName ↔
      (name ∈ params.map (·.name) ∧ name ≠ signatureName) ∧ isProtocolName name = true := by
  rw [List.mem_filter, List.mem_map, List.mem_map]
  refine and_congr_left fun _ => ?_
  constructor
  · rintro ⟨p, hp, rfl⟩
    exact ⟨⟨p, (mem_signedParams.1 hp).1, rfl⟩, (mem_signedParams.1 hp).2⟩
  · rintro ⟨⟨p, hp, rfl⟩, hne⟩
    exact ⟨p, mem_signedParams.2 ⟨hp, hne⟩, rfl⟩

/-- The signed set of a message that makes a claim is unequivocal if the query adds nothing to
it. -/
theorem Makes.unequivocal_append_iff (h : m.Makes c) :
    m.Unequivocal (signedParams (m.params ++ query)) ↔ m.AddsNothing query := by
  rw [signedParams_append]
  constructor
  · intro hall
    have honce := hall.once
    rw [List.map_append, List.filter_append, List.nodup_append] at honce
    refine ⟨honce.2.1, ?_, ?_⟩
    · intro p hp hname hmem
      have hne := (mem_signedParams.1 hp).2
      exact honce.2.2 p.name (mem_protocolNames.2 ⟨⟨hmem, hne⟩, hname⟩) p.name
        (List.mem_filter.2 ⟨List.mem_map_of_mem hp, hname⟩) rfl
    · rintro ⟨name, value⟩ hp rfl
      exact hall.version _
        (List.mem_append_right _ (mem_signedParams.2 ⟨hp, by show "oauth_version" ≠ _; decide⟩)) rfl
  · intro hadds
    have hown := h.unequivocal
    refine ⟨?_, ?_, ?_⟩
    · rw [List.map_append, List.filter_append, List.nodup_append]
      refine ⟨hown.once, hadds.once, ?_⟩
      rintro name hleft _ hright rfl
      obtain ⟨hmem, hname⟩ := List.mem_filter.1 hright
      obtain ⟨p, hp, rfl⟩ := List.mem_map.1 hmem
      exact hadds.apart p hp hname (mem_protocolNames.1 hleft).1.1
    · intro p hp hversion
      rcases List.mem_append.1 hp with hleft | hright
      · exact hown.version p hleft hversion
      · exact hadds.version p (mem_signedParams.1 hright).1 hversion
    · intro p hp hchecked
      rcases List.mem_append.1 hp with hleft | hright
      · exact hown.checked p hleft hchecked
      · -- what is checked is given by the message, so the query does not give it again
        exact absurd (h.mem_names hchecked)
          (hadds.apart p hright (isProtocolName_of_checked hchecked))

/-! ## Another address -/

/-- A parameter, or the signature with another value. -/
def resign (signature : String) (p : Param) : Param :=
  if p.name = signatureName then ⟨signatureName, signature⟩ else p

/-- The message for another address, with another signature. -/
def readdress (m : Message) (url signature : String) : Message :=
  ⟨m.method, url, m.params.map (resign signature)⟩

theorem resign_name (signature : String) (p : Param) : (resign signature p).name = p.name := by
  unfold resign
  split
  · next h => exact h.symm
  · rfl

theorem names_readdress (m : Message) (url signature : String) :
    (m.readdress url signature).params.map (·.name) = m.params.map (·.name) := by
  rw [readdress, List.map_map]
  exact List.map_congr_left fun p _ => resign_name signature p

/-- The other signature is not signed, and the other parameters are as they were. -/
theorem signedParams_readdress (m : Message) (url signature : String) :
    signedParams (m.readdress url signature).params = signedParams m.params := by
  show signedParams (m.params.map (resign signature)) = signedParams m.params
  induction m.params with
  | nil => rfl
  | cons p params ih =>
    by_cases h : p.name = signatureName
    · simp only [signedParams, List.map_cons, List.filter_cons, resign_name, h] at ih ⊢
      exact ih
    · have hsame : resign signature p = p := if_neg h
      have hcons : ∀ rest, signedParams (p :: rest) = p :: signedParams rest :=
        fun rest => List.filter_cons_of_pos (by simpa using h)
      rw [List.map_cons, hsame, hcons, hcons, ih]

theorem find?_readdress (name : String) (m : Message) (url signature : String) :
    ((m.readdress url signature).params.find? fun p => p.name == name) =
      (m.params.find? fun p => p.name == name).map (resign signature) := by
  have hsame : ((fun p : Param => p.name == name) ∘ resign signature) = fun p => p.name == name :=
    funext fun p => congrArg (· == name) (resign_name signature p)
  rw [readdress, List.find?_map, hsame]

theorem duplicate?_readdress (m : Message) (url signature : String) :
    (m.readdress url signature).duplicate? = m.duplicate? := by
  rw [duplicate?, names_readdress, duplicate?]

theorem param?_readdress_of_ne {name : String} (hname : name ≠ signatureName) (m : Message)
    (url signature : String) : (m.readdress url signature).param? name = m.param? name := by
  rw [param?, find?_readdress, param?]
  cases hfound : m.params.find? fun p => p.name == name with
  | none => rfl
  | some p =>
    have hp : p.name = name := by simpa using List.find?_some hfound
    have hsame : resign signature p = p := if_neg fun h => hname (hp.symm.trans h)
    rw [Option.map_some, hsame]

theorem param?_readdress_signature {old : String} (h : m.param? signatureName = some old)
    (url signature : String) :
    (m.readdress url signature).param? signatureName = some signature := by
  rw [param?, Option.map_eq_some_iff] at h
  obtain ⟨p, hfound, -⟩ := h
  have hp : p.name = signatureName := by simpa using List.find?_some hfound
  have hresigned : resign signature p = ⟨signatureName, signature⟩ := if_pos hp
  rw [param?, find?_readdress, hfound, Option.map_some, hresigned]
  rfl

/-- At another address and with another signature, a message claims the same. -/
theorem Makes.readdress (h : m.Makes c) (url signature : String) :
    (m.readdress url signature).Makes { c with signature } where
  unique := (duplicate?_readdress m url signature).trans h.unique
  version := by
    have hversion := h.version
    rw [checkVersion, ← param?_readdress_of_ne (by decide) m url signature] at hversion
    exact hversion
  consumer := (param?_readdress_of_ne (by decide) m url signature).trans h.consumer
  signature := param?_readdress_signature h.signature url signature
  method := by
    rw [param?_readdress_of_ne (by decide) m url signature]
    exact h.method
  nonce := (param?_readdress_of_ne (by decide) m url signature).trans h.nonce
  timestamp := by
    rw [param?_readdress_of_ne (by decide) m url signature]
    exact h.timestamp

end Message

variable {σ : Type} {s : AuthSettings} {backend : IdentityBackend σ} {m : Message} {now : Int}

/-- A message that is accepted would be accepted at every address, with the signature for that
address. So no query is a reason to refuse it. -/
theorem verify_readdress {st st' : AuthState σ} {p : Principal}
    (h : (verify s backend m now).run st = (.ok p, st')) {url address : String}
    {query : List Param} (hurl : normalizeUrl url = .ok (address, query)) :
    ∃ signature, (verify s backend (m.readdress url signature) now).run st = (.ok p, st') := by
  obtain ⟨claim, record, identities, hscreen, hadmission, hp, hst⟩ := verify_ok_iff.1 h
  obtain ⟨hclaim, htimely, hlookup, -⟩ := screen_ok_iff.1 hscreen
  have hmakes := Message.claim_eq_ok_iff.1 hclaim
  -- the text to be signed does not contain the signature, so it is known before
  let base := baseText (m.method.toList.map Char.toUpper) address (m.params ++ query)
  let signature := sign claim.method base record.secret ""
  have hbase : (m.readdress url signature).baseString = .ok base := by
    refine baseString_eq_ok_iff.2 ⟨address, query, hurl, baseText_eq_iff.2 ⟨rfl, rfl, ?_⟩⟩
    rw [Message.signedParams_append, Message.signedParams_append, Message.signedParams_readdress]
  have hclaim' := Message.claim_eq_ok_iff.2 (hmakes.readdress url signature)
  have hcheck : checkSignature (m.readdress url signature) { claim with signature } record =
      .ok () :=
    checkSignature_eq_ok_iff.2 ⟨base, hbase, rfl⟩
  have hscreen' := screen_ok_iff.2 ⟨hclaim', htimely, hlookup, hcheck⟩
  exact ⟨signature, verify_ok_iff.2 ⟨_, record, identities, hscreen', hadmission, hp, hst⟩⟩

/-- The parameters that an accepted message gives itself are unequivocal. The signed set, with
those of the query of its address, is so exactly if the query adds nothing; and that is not looked
at, for the same message is accepted with every query. -/
theorem query_is_signed_unchecked {st st' : AuthState σ} {p : Principal}
    (h : (verify s backend m now).run st = (.ok p, st')) :
    ∃ address query, normalizeUrl m.url = .ok (address, query) ∧
      m.baseString =
        .ok (baseText (m.method.toList.map Char.toUpper) address (m.params ++ query)) ∧
      m.Unequivocal (signedParams m.params) ∧
      (m.Unequivocal (signedParams (m.params ++ query)) ↔ m.AddsNothing query) ∧
      ∀ url' address' query', normalizeUrl url' = .ok (address', query') →
        ∃ signature, (verify s backend (m.readdress url' signature) now).run st = (.ok p, st') := by
  obtain ⟨claim, record, identities, hscreen, -⟩ := verify_ok_iff.1 h
  obtain ⟨hclaim, -, -, hcheck⟩ := screen_ok_iff.1 hscreen
  have hmakes := Message.claim_eq_ok_iff.1 hclaim
  obtain ⟨base, hbase, -⟩ := checkSignature_eq_ok_iff.1 hcheck
  obtain ⟨address, query, hurl, rfl⟩ := baseString_eq_ok_iff.1 hbase
  exact ⟨address, query, hurl, hbase, hmakes.unequivocal, hmakes.unequivocal_append_iff,
    fun url' address' query' hurl' => verify_readdress h hurl'⟩

/-! ## A message that says two things -/

namespace Sample

/-- The parameters that the query of the address adds. -/
def stray : List Param :=
  [⟨"oauth_nonce", "other"⟩, ⟨"oauth_version", "2.0"⟩]

/-- A request with plain signature. Its address gives another nonce and a wrong version. -/
def equivocal : Message :=
  ⟨"GET", "http://h/?oauth_nonce=other&oauth_version=2.0",
    [⟨"oauth_consumer_key", "c"⟩, ⟨"oauth_signature_method", "PLAINTEXT"⟩,
      ⟨"oauth_timestamp", "1000"⟩, ⟨"oauth_nonce", "n"⟩, ⟨"oauth_signature", "s&"⟩]⟩

end Sample

open Sample in
/-- The law that the signed set of an accepted message is unequivocal fails: it has two nonces, of
which one was checked, and a version that is not supported. -/
theorem equivocal_accepted :
    normalizeUrl equivocal.url = .ok ("http://h/", stray) ∧
    accepts settings Registry.backend equivocal 1000 start = true ∧
    ⟨"oauth_nonce", "n"⟩ ∈ signedParams (equivocal.params ++ stray) ∧
    ⟨"oauth_nonce", "other"⟩ ∈ signedParams (equivocal.params ++ stray) ∧
    ⟨"oauth_version", "2.0"⟩ ∈ signedParams (equivocal.params ++ stray) ∧
    ¬equivocal.Unequivocal (signedParams (equivocal.params ++ stray)) := by
  refine ⟨by decide +kernel, by decide +kernel, by decide, by decide, by decide, fun h => ?_⟩
  exact absurd (h.version ⟨"oauth_version", "2.0"⟩ (by decide) rfl) (by decide)

open Sample in
/-- The signed request has an address without query, to which nothing is added. With the right
signature it is accepted at the address with two nonces as well. -/
theorem query_is_signed_unchecked_sample :
    ∃ st, (verify settings Registry.backend (message "http://h/open") 1000).run start =
        (.ok ⟨"c", .oauth, []⟩, st) ∧
      (message "http://h/open").Unequivocal (signedParams signed) ∧
      ∃ signature, (verify settings Registry.backend
        ((message "http://h/open").readdress equivocal.url signature) 1000).run start =
          (.ok ⟨"c", .oauth, []⟩, st) := by
  have hurl : normalizeUrl "http://h/open" = .ok ("http://h/open", []) := by decide +kernel
  obtain ⟨st, haccepted⟩ := verify_message hurl
  obtain ⟨address, query, -, -, hown, -, hothers⟩ := query_is_signed_unchecked haccepted
  exact ⟨st, haccepted, hown, hothers equivocal.url "http://h/" stray (by decide +kernel)⟩

end Gatehouse.OAuth
