import Gatehouse.Proofs.Form
import Gatehouse.Proofs.OAuth.Binding
import Gatehouse.Proofs.OAuth.Header

/-!
# Where parameters are sent does not matter

The parameters of a signed request can be sent in its header, in its query or in its body, and
each place has a notation of its own. Whatever the place, the same parameters are collected, in an
order that depends on it; and the order does not matter to verification, apart from the wording of
one error. If several protocol parameters are given twice, the error names the first repetition.

- `Transport`, `Transport.collected`: parameters in three places, and what is collected from them.
- `collected_eq_params`: nothing is lost or changed on the way.
- `screen_eq_of_perm`, `verify_of_duplicate?`: the stages of verification and the order.
- `verify_transport`: two ways to send the same parameters are treated alike.
-/

namespace Gatehouse.OAuth

/-! ## Three places -/

/-- The parameters that are sent in each of the three places, where `none` stands for a place that
is not there at all. -/
structure Transport where
  header : Option (List Param)
  query : Option (List Param)
  body : Option (List Param)
deriving DecidableEq, Repr

namespace Transport

/-- All parameters that are sent. -/
def params (t : Transport) : List Param :=
  t.header.getD [] ++ t.query.getD [] ++ t.body.getD []

/-- A form-encoded text with the given parameters. -/
def form (params : List Param) : String :=
  String.ofList (Form.render params)

/-- The parameters that are collected from the texts of header, query and body. -/
def collected (t : Transport) : List Param :=
  collect (t.header.map renderHeader) (t.query.map form) (t.body.map form)

/-- The message that is verified in the end. -/
def message (t : Transport) (method url : String) : Message :=
  ⟨method, url, t.collected⟩

theorem ofForm_map_form (params : Option (List Param)) :
    ofForm (params.map form) = params.getD [] := by
  cases params with
  | none => rfl
  | some params =>
    show Form.parse (String.ofList (Form.render params)).toList = params
    rw [String.toList_ofList, Form.parse_render]

/-- What is sent is collected, unless a name is to be skipped in headers. -/
theorem collected_eq_params {t : Transport}
    (h : ∀ p ∈ t.params, isSkipped p.name.toList = false) : t.collected = t.params := by
  have hheader : ((t.header.map renderHeader).map decodeHeader).getD [] = t.header.getD [] := by
    cases ht : t.header with
    | none => rfl
    | some sent =>
      show decodeHeader (renderHeader sent) = sent
      rw [decodeHeader_renderHeader, List.filter_eq_self]
      intro p hp
      have hmem : p ∈ t.params := by
        rw [params, ht]
        exact List.mem_append_left _ (List.mem_append_left _ hp)
      rw [h p hmem]
      rfl
  rw [collected, collect, hheader, ofForm_map_form, ofForm_map_form]
  rfl

end Transport

/-! ## The order of the parameters -/

/-- Two outcomes that differ at most in the name of a repeated parameter. -/
inductive SameVerdict : Except AuthError Principal → Except AuthError Principal → Prop where
  | same (verdict : Except AuthError Principal) : SameVerdict verdict verdict
  | repeated (name name' : String) :
    SameVerdict (.error (.malformedHeader (.duplicateParameter name)))
      (.error (.malformedHeader (.duplicateParameter name')))

theorem SameVerdict.eq_ok {p : Principal} {verdict : Except AuthError Principal}
    (h : SameVerdict (.ok p) verdict) : verdict = .ok p := by
  cases h with
  | same => rfl

section Order

variable {σ : Type} {method url : String} {params params' : List Param}

/-- The signature is right in one order if it is right in the other. -/
theorem checkSignature_of_perm (hperm : params.Perm params') (claim : Claim)
    (record : ConsumerRecord) :
    checkSignature ⟨method, url, params'⟩ claim record =
      checkSignature ⟨method, url, params⟩ claim record := by
  rw [checkSignature, checkSignature, Message.baseString, Message.baseString,
    baseString_of_perm hperm]

/-- Everything that is checked before the guard is asked, if no parameter is repeated. -/
theorem screen_eq_of_perm (hperm : params.Perm params')
    (hunique : Message.duplicate? ⟨method, url, params⟩ = none) (s : AuthSettings)
    (backend : IdentityBackend σ) (now : Int) (identities : σ) :
    screen s backend ⟨method, url, params'⟩ now identities =
      screen s backend ⟨method, url, params⟩ now identities := by
  have hclaim : Message.claim ⟨method, url, params'⟩ = Message.claim ⟨method, url, params⟩ :=
    Message.claim_eq_of_perm hperm hunique
  simp only [screen, hclaim, checkSignature_of_perm hperm]

/-- A repeated parameter is noticed before anything else, and nothing is changed. -/
theorem verify_of_duplicate? {m : Message} {name : String} (h : m.duplicate? = some name)
    (s : AuthSettings) (backend : IdentityBackend σ) (now : Int) (st : AuthState σ) :
    (verify s backend m now).run st =
      (.error (.malformedHeader (.duplicateParameter name)), st) := by
  rw [verify_run, screen, Message.claim_of_duplicate? h]

/-- Messages with the same parameters are verified alike. -/
theorem sameVerdict_of_perm (hperm : params.Perm params') (s : AuthSettings)
    (backend : IdentityBackend σ) (now : Int) (st : AuthState σ) :
    SameVerdict ((verify s backend ⟨method, url, params⟩ now).run st).1
        ((verify s backend ⟨method, url, params'⟩ now).run st).1 ∧
      ((verify s backend ⟨method, url, params⟩ now).run st).2 =
        ((verify s backend ⟨method, url, params'⟩ now).run st).2 := by
  cases hdup : Message.duplicate? ⟨method, url, params⟩ with
  | none =>
    have hsame : (verify s backend ⟨method, url, params'⟩ now).run st =
        (verify s backend ⟨method, url, params⟩ now).run st := by
      rw [verify_run, verify_run, screen_eq_of_perm hperm hdup]
    rw [hsame]
    exact ⟨.same _, rfl⟩
  | some name =>
    cases hdup' : Message.duplicate? ⟨method, url, params'⟩ with
    | none =>
      -- without a repetition here there would be none there
      have hback : Message.duplicate? ⟨method, url, params⟩ = none :=
        Message.duplicate?_eq_none_of_perm hperm.symm hdup'
      rw [hdup] at hback
      cases hback
    | some name' =>
      rw [verify_of_duplicate? hdup, verify_of_duplicate? hdup']
      exact ⟨.repeated name name', rfl⟩

end Order

/-! ## The result -/

/-- Parameters with names that headers do not skip can be sent in any order in header, query and
body: they are collected, and verified alike from every state. -/
theorem verify_transport {sent : List Param}
    (hnames : ∀ p ∈ sent, isSkipped p.name.toList = false) {t t' : Transport}
    (h : t.params.Perm sent) (h' : t'.params.Perm sent) {σ : Type} (s : AuthSettings)
    (backend : IdentityBackend σ) (method url : String) (now : Int) (st : AuthState σ) :
    (t.collected.Perm sent ∧ t'.collected.Perm sent) ∧
    SameVerdict ((verify s backend (t.message method url) now).run st).1
      ((verify s backend (t'.message method url) now).run st).1 ∧
    ((verify s backend (t.message method url) now).run st).2 =
      ((verify s backend (t'.message method url) now).run st).2 := by
  have hcollected : ∀ {t : Transport}, t.params.Perm sent → t.collected.Perm sent := by
    intro t hsent
    rw [Transport.collected_eq_params fun p hp => hnames p (hsent.mem_iff.1 hp)]
    exact hsent
  exact ⟨⟨hcollected h, hcollected h'⟩,
    sameVerdict_of_perm ((hcollected h).trans (hcollected h').symm) s backend now st⟩

namespace Sample

/-- The signed request as a form. -/
def asForm : Transport :=
  ⟨none, none, some signed⟩

/-- The signed request with its last three parameters in the header and the others in the query,
in descending order. -/
def scattered : Transport :=
  ⟨some (signed.reverse.take 3), some (signed.reverse.drop 3), none⟩

end Sample

/-- A signed request is accepted as a form, and therefore also if its parameters are scattered. -/
theorem verify_transport_sample :
    ((verify Sample.settings Registry.backend
      (Sample.scattered.message "POST" "http://h/open") 1000).run Sample.start).1 =
        .ok ⟨"c", .oauth, []⟩ := by
  have hnames : ∀ p ∈ Sample.signed, isSkipped p.name.toList = false := by
    intro p hp
    simp only [Sample.signed, Sample.unsigned, List.cons_append, List.nil_append, List.mem_cons,
      List.not_mem_nil, or_false] at hp
    rcases hp with rfl | rfl | rfl | rfl | rfl
    all_goals decide
  have hform : Sample.asForm.params = Sample.signed := List.nil_append _
  have hscattered : Sample.scattered.params.Perm Sample.signed := by
    show (Sample.signed.reverse.take 3 ++ Sample.signed.reverse.drop 3 ++ []).Perm _
    rw [List.append_nil, List.take_append_drop]
    exact List.reverse_perm _
  obtain ⟨-, hverdict, -⟩ := verify_transport hnames (List.Perm.of_eq hform) hscattered
    Sample.settings Registry.backend "POST" "http://h/open" 1000 Sample.start
  have hmessage : Sample.asForm.message "POST" "http://h/open" =
      Sample.message "http://h/open" := by
    rw [Transport.message, Transport.collected_eq_params (by rwa [hform]), hform]
    rfl
  have hurl : normalizeUrl "http://h/open" = .ok ("http://h/open", []) := by decide +kernel
  obtain ⟨st, haccepted⟩ := Sample.verify_message hurl
  rw [hmessage, haccepted] at hverdict
  exact hverdict.eq_ok

end Gatehouse.OAuth
