import Gatehouse.OAuth.Message
import Gatehouse.Proofs.Computation

/-!
# What a message claims

A claim is read from the protocol parameters one after the other, and the reading stops at the
first thing that is missing or makes no sense. `Message.Makes` collects what has to hold if it
gets to the end; `claim_eq_ok_iff` says that nothing else is asked for.

As long as no protocol parameter is given twice, the order of the parameters does not matter, for
what is claimed as little as for the reason why nothing is: `param?_eq_some_iff` and
`claim_eq_of_perm`.
-/

namespace Gatehouse.OAuth

namespace Message

variable {m : Message} {c : Claim}

/-- A message makes a claim: every protocol parameter occurs once and says what the claim says. -/
structure Makes (m : Message) (c : Claim) : Prop where
  unique : m.duplicate? = none
  version : m.checkVersion = .ok ()
  consumer : m.param? "oauth_consumer_key" = some c.consumer
  signature : m.param? signatureName = some c.signature
  method : ∃ name, m.param? "oauth_signature_method" = some name ∧
    SignatureMethod.ofText name = .ok c.method
  nonce : m.param? "oauth_nonce" = some c.nonce
  timestamp : ∃ text, m.param? "oauth_timestamp" = some text ∧
    Numeral.signed? text.toList = some c.timestamp

theorem require_eq_ok_iff {name value : String} :
    m.require name = .ok value ↔ m.param? name = some value := by
  unfold require
  cases m.param? name with
  | none => simp
  | some v => simp

theorem readTimestamp_eq_ok_iff {text : String} {t : Int} :
    readTimestamp text = .ok t ↔ Numeral.signed? text.toList = some t := by
  unfold readTimestamp
  cases Numeral.signed? text.toList with
  | none => simp
  | some v => simp

theorem claim_eq_ok_iff : m.claim = .ok c ↔ m.Makes c := by
  constructor
  · intro h
    unfold claim at h
    cases hd : m.duplicate? with
    | some name =>
      rw [hd] at h
      cases h
    | none =>
      rw [hd] at h
      -- one parameter after the other, in the order in which they are read
      obtain ⟨⟨⟩, hversion, h⟩ := ok_of_bind h
      obtain ⟨consumer, hconsumer, h⟩ := ok_of_bind h
      obtain ⟨signature, hsignature, h⟩ := ok_of_bind h
      obtain ⟨name, hname, h⟩ := ok_of_bind h
      obtain ⟨method, hmethod, h⟩ := ok_of_bind h
      obtain ⟨nonce, hnonce, h⟩ := ok_of_bind h
      obtain ⟨text, htext, h⟩ := ok_of_bind h
      obtain ⟨timestamp, htimestamp, h⟩ := ok_of_bind h
      cases h
      exact {
        unique := hd
        version := hversion
        consumer := require_eq_ok_iff.1 hconsumer
        signature := require_eq_ok_iff.1 hsignature
        method := ⟨name, require_eq_ok_iff.1 hname, hmethod⟩
        nonce := require_eq_ok_iff.1 hnonce
        timestamp := ⟨text, require_eq_ok_iff.1 htext, readTimestamp_eq_ok_iff.1 htimestamp⟩ }
  · rintro ⟨hd, hversion, hconsumer, hsignature, ⟨name, hname, hmethod⟩, hnonce, text, htext, ht⟩
    unfold claim
    rw [hd, hversion, require_eq_ok_iff.2 hconsumer, require_eq_ok_iff.2 hsignature,
      require_eq_ok_iff.2 hname, require_eq_ok_iff.2 hnonce, require_eq_ok_iff.2 htext]
    show (do
      let method ← SignatureMethod.ofText name
      let timestamp ← readTimestamp text
      pure (⟨c.consumer, c.signature, method, c.nonce, timestamp⟩ : Claim)) = _
    rw [hmethod, readTimestamp_eq_ok_iff.2 ht]
    rfl

/-- Timestamps are signed 64-bit numbers. -/
theorem Makes.timestamp_range (h : m.Makes c) :
    Numeral.minSigned ≤ c.timestamp ∧ c.timestamp ≤ Numeral.maxSigned := by
  obtain ⟨text, -, ht⟩ := h.timestamp
  unfold Numeral.signed? at ht
  simpa using (Option.filter_eq_some_iff.1 ht).2

/-! ## The order of the parameters -/

theorem firstRepeated_eq_none_iff {seen names : List String} :
    firstRepeated seen names = none ↔ names.Nodup ∧ ∀ name ∈ names, name ∉ seen := by
  induction names generalizing seen with
  | nil => simp [firstRepeated]
  | cons name rest ih =>
    by_cases hseen : name ∈ seen
    · simp [firstRepeated, hseen]
    · rw [List.forall_mem_cons, List.nodup_cons]
      simp only [firstRepeated, List.contains_eq_mem, hseen, decide_false, Bool.false_eq_true,
        if_false, ih, List.mem_cons, not_or]
      constructor
      · rintro ⟨hnodup, hrest⟩
        exact ⟨⟨fun hmem => (hrest name hmem).1 rfl, hnodup⟩, not_false, fun n hn => (hrest n hn).2⟩
      · rintro ⟨⟨hname, hnodup⟩, -, hrest⟩
        exact ⟨hnodup, fun n hn => ⟨fun heq => hname (heq ▸ hn), hrest n hn⟩⟩

/-- No protocol parameter is given twice. -/
theorem duplicate?_eq_none_iff :
    m.duplicate? = none ↔ ((m.params.map (·.name)).filter isProtocolName).Nodup := by
  rw [duplicate?, firstRepeated_eq_none_iff]
  simp

/-- In a list in which a name occurs once, its first value is its only one. -/
theorem find?_name_eq_some_iff {name value : String} {params : List Param}
    (h : ((params.map (·.name)).filter isProtocolName).Nodup)
    (hname : isProtocolName name = true) :
    (params.find? fun p => p.name == name).map (·.value) = some value ↔
      ⟨name, value⟩ ∈ params := by
  induction params with
  | nil => simp
  | cons p params ih =>
    obtain ⟨n, v⟩ := p
    rw [List.map_cons] at h
    by_cases hn : n = name
    · subst hn
      -- the name occurs here, and so it does not occur further on
      rw [List.filter_cons_of_pos hname, List.nodup_cons] at h
      have hrest : ⟨n, value⟩ ∉ params := by
        intro hmem
        exact h.1 (List.mem_filter.2 ⟨List.mem_map.2 ⟨_, hmem, rfl⟩, hname⟩)
      simp [hrest, eq_comm]
    · have htail := ih (h.sublist (List.Sublist.filter _ (List.sublist_cons_self _ _)))
      simp [hn, htail, Ne.symm hn]

/-- A protocol parameter that is not given twice has the value that it is given with. -/
theorem param?_eq_some_iff (h : m.duplicate? = none) {name value : String}
    (hname : isProtocolName name = true) :
    m.param? name = some value ↔ ⟨name, value⟩ ∈ m.params :=
  find?_name_eq_some_iff (duplicate?_eq_none_iff.1 h) hname

/-- Messages with the same parameters have the same values of protocol parameters. -/
theorem param?_eq_of_perm {m' : Message} (hperm : m.params.Perm m'.params)
    (h : m.duplicate? = none) (h' : m'.duplicate? = none) {name : String}
    (hname : isProtocolName name = true) : m.param? name = m'.param? name := by
  refine Option.ext fun value => ?_
  show m.param? name = some value ↔ m'.param? name = some value
  rw [param?_eq_some_iff h hname, param?_eq_some_iff h' hname, hperm.mem_iff]

theorem duplicate?_eq_none_of_perm {m' : Message} (hperm : m.params.Perm m'.params)
    (h : m.duplicate? = none) : m'.duplicate? = none := by
  have hnames := (hperm.map (·.name)).filter isProtocolName
  exact duplicate?_eq_none_iff.2 (hnames.nodup (duplicate?_eq_none_iff.1 h))

/-- A message with a repeated parameter claims nothing. -/
theorem claim_of_duplicate? {name : String} (h : m.duplicate? = some name) :
    m.claim = .error (.malformedHeader (.duplicateParameter name)) := by
  rw [claim, h]

/-- What a message claims, or why it claims nothing, does not depend on the order of the
parameters, if no protocol parameter is given twice. -/
theorem claim_eq_of_perm {m' : Message} (hperm : m.params.Perm m'.params)
    (h : m.duplicate? = none) : m'.claim = m.claim := by
  have h' := duplicate?_eq_none_of_perm hperm h
  have hparam : ∀ {name}, isProtocolName name = true → m'.param? name = m.param? name :=
    fun hname => (param?_eq_of_perm hperm h h' hname).symm
  have hversion : m'.checkVersion = m.checkVersion := by
    rw [checkVersion, checkVersion, hparam (by decide)]
  have hrequire : ∀ name, isProtocolName name = true → m'.require name = m.require name := by
    intro name hname
    rw [require, require, hparam hname]
  simp only [claim, h, h', hversion, hrequire "oauth_consumer_key" (by decide),
    hrequire signatureName (by decide), hrequire "oauth_signature_method" (by decide),
    hrequire "oauth_nonce" (by decide), hrequire "oauth_timestamp" (by decide)]

theorem makes_of_perm {m' : Message} (hperm : m.params.Perm m'.params) (h : m.Makes c) :
    m'.Makes c :=
  claim_eq_ok_iff.1 ((claim_eq_of_perm hperm h.unique).trans (claim_eq_ok_iff.2 h))

end Message

end Gatehouse.OAuth
