import Mathlib.Data.Multiset.Basic
import Gatehouse.OAuth.Message
import Gatehouse.Proofs.Percent
import Gatehouse.Proofs.Text.Split

/-!
# Base strings name requests in one way

A base string is made of three encoded parts, the last of which is made of encoded pairs, so that
names and values are encoded twice. Nothing is lost on the way: the separators stand outside the
alphabet of what they separate, and the pairs are sorted by an order in which only equal pairs
are of equal rank. What the base string forgets is the letter case of the method, everything that
a normalized address forgets, and the order of the parameters.

- `CanonicalRequest`: what is left of a request then.
- `sortedPairs_eq_iff`: sorting encoded pairs forgets their order and nothing else.
- `normalizeParams_injective`: the sorted pairs can be read off their text.
- `baseString_eq_iff`: equal base strings are base strings of the same canonical request.
-/

namespace Gatehouse.OAuth

/-! ## The order of encoded pairs -/

theorem textLe_total (a b : List Char) : textLe a b = true ∨ textLe b a = true := by
  induction a generalizing b with
  | nil => exact .inl rfl
  | cons x a ih =>
    cases b with
    | nil => exact .inr rfl
    | cons y b =>
      simp only [textLe, Bool.or_eq_true, Bool.and_eq_true, beq_iff_eq, decide_eq_true_eq]
      rcases Nat.lt_trichotomy x.toNat y.toNat with hlt | heq | hgt
      · exact .inl (.inl hlt)
      · have hxy : x = y := Char.toNat_inj.1 heq
        rcases ih b with h | h
        · exact .inl (.inr ⟨hxy, h⟩)
        · exact .inr (.inr ⟨hxy.symm, h⟩)
      · exact .inr (.inl hgt)

theorem textLe_antisymm {a b : List Char} (h : textLe a b = true) (h' : textLe b a = true) :
    a = b := by
  induction a generalizing b with
  | nil =>
    cases b with
    | nil => rfl
    | cons y b => cases h'
  | cons x a ih =>
    cases b with
    | nil => cases h
    | cons y b =>
      simp only [textLe, Bool.or_eq_true, Bool.and_eq_true, beq_iff_eq, decide_eq_true_eq] at h h'
      rcases h with hlt | ⟨rfl, h⟩
      · rcases h' with hgt | ⟨rfl, -⟩
        · omega
        · omega
      · rcases h' with hlt | ⟨-, h'⟩
        · omega
        · rw [ih h h']

theorem textLe_trans {a b c : List Char} (h : textLe a b = true) (h' : textLe b c = true) :
    textLe a c = true := by
  induction a generalizing b c with
  | nil => rfl
  | cons x a ih =>
    cases b with
    | nil => cases h
    | cons y b =>
      cases c with
      | nil => cases h'
      | cons z c =>
        simp only [textLe, Bool.or_eq_true, Bool.and_eq_true, beq_iff_eq,
          decide_eq_true_eq] at h h' ⊢
        rcases h with hxy | ⟨rfl, h⟩
        · rcases h' with hyz | ⟨rfl, -⟩
          · exact .inl (by omega)
          · exact .inl hxy
        · rcases h' with hxz | ⟨rfl, h'⟩
          · exact .inl hxz
          · exact .inr ⟨rfl, ih h h'⟩

theorem pairLe_total (p q : List Char × List Char) : (pairLe p q || pairLe q p) = true := by
  rw [Bool.or_eq_true]
  by_cases h : p.1 = q.1
  · simp only [pairLe, h, if_true]
    exact textLe_total p.2 q.2
  · simp only [pairLe, h, Ne.symm h, if_false]
    exact textLe_total p.1 q.1

theorem pairLe_antisymm {p q : List Char × List Char} (h : pairLe p q = true)
    (h' : pairLe q p = true) : p = q := by
  by_cases hname : p.1 = q.1
  · simp only [pairLe, hname, if_true] at h h'
    exact Prod.ext hname (textLe_antisymm h h')
  · simp only [pairLe, hname, Ne.symm hname, if_false] at h h'
    exact absurd (textLe_antisymm h h') hname

theorem pairLe_trans (p q r : List Char × List Char) (h : pairLe p q = true)
    (h' : pairLe q r = true) : pairLe p r = true := by
  unfold pairLe at h h' ⊢
  by_cases hpq : p.1 = q.1
  · rw [if_pos hpq] at h
    by_cases hqr : q.1 = r.1
    · rw [if_pos hqr] at h'
      rw [if_pos (hpq.trans hqr)]
      exact textLe_trans h h'
    · rw [if_neg hqr] at h'
      rw [if_neg (hpq ▸ hqr), hpq]
      exact h'
  · rw [if_neg hpq] at h
    by_cases hqr : q.1 = r.1
    · rw [if_neg (hqr ▸ hpq), ← hqr]
      exact h
    · rw [if_neg hqr] at h'
      have hle := textLe_trans h h'
      by_cases hpr : p.1 = r.1
      · -- then the names in between would be equal as well
        rw [hpr] at h
        exact absurd (textLe_antisymm h' h) hqr
      · rw [if_neg hpr]
        exact hle

/-! ## Sorted pairs -/

/-- The parameters that are signed: all but the signature. -/
def signedParams (params : List Param) : List Param :=
  params.filter fun p => p.name ≠ signatureName

theorem encodePair_injective {p q : Param} (h : encodePair p = encodePair q) : p = q := by
  obtain ⟨hname, hvalue⟩ := Prod.mk.inj h
  cases p
  cases q
  rw [Param.mk.injEq, ← String.toList_inj, ← String.toList_inj]
  exact ⟨Percent.oauthEncode_injective hname, Percent.oauthEncode_injective hvalue⟩

/-- Sorting encoded pairs forgets their order and nothing else. -/
theorem sortedPairs_eq_iff {params params' : List Param} :
    sortedPairs params = sortedPairs params' ↔
      (signedParams params).Perm (signedParams params') := by
  have hsorts : ∀ params, (sortedPairs params).Perm ((signedParams params).map encodePair) :=
    fun params => List.mergeSort_perm _ _
  constructor
  · intro h
    have hperm := (hsorts params).symm.trans ((List.Perm.of_eq h).trans (hsorts params'))
    exact (List.map_perm_map_iff fun _ _ => encodePair_injective).1 hperm
  · intro h
    -- pairs of equal rank are equal, so there is one way only to sort the same pairs
    have hperm := (hsorts params).trans ((h.map encodePair).trans (hsorts params').symm)
    have hsorted : ∀ params, (sortedPairs params).Pairwise fun p q => pairLe p q = true :=
      fun params => List.pairwise_mergeSort pairLe_trans pairLe_total _
    exact hperm.eq_of_pairwise (fun _ _ _ _ => pairLe_antisymm) (hsorted params) (hsorted params')

/-! ## The text of the parameters -/

/-- The name and the value of a pair are those of some parameter. -/
theorem exists_param_of_mem_sortedPairs {params : List Param} {pair : List Char × List Char}
    (h : pair ∈ sortedPairs params) : ∃ p : Param, pair = encodePair p := by
  rw [sortedPairs, List.mem_mergeSort] at h
  obtain ⟨p, -, hp⟩ := List.mem_map.1 h
  exact ⟨p, hp.symm⟩

/-- The text of a pair. -/
def pairText (pair : List Char × List Char) : List Char :=
  pair.1 ++ '=' :: pair.2

/-- The text of an encoded pair is cut where the name ends. -/
theorem splitOnce_pairText (p : Param) :
    Text.splitOnce '=' (pairText (encodePair p)) = some (encodePair p) :=
  Text.splitOnce_append (Percent.notMem_oauthEncode (by decide) (by decide) _) _

theorem pairText_encodePair (p : Param) :
    pairText (encodePair p) ≠ [] ∧ '&' ∉ pairText (encodePair p) :=
  Text.pair_isPiece (by decide) (Percent.notMem_oauthEncode (by decide) (by decide) _)
    (Percent.notMem_oauthEncode (by decide) (by decide) _)

/-- The sorted pairs can be read off their text. -/
theorem normalizeParams_injective {params params' : List Param}
    (h : normalizeParams params = normalizeParams params') :
    sortedPairs params = sortedPairs params' := by
  have hpieces : ∀ params, ∀ piece ∈ (sortedPairs params).map pairText,
      piece ≠ [] ∧ '&' ∉ piece := by
    intro params piece hmem
    obtain ⟨pair, hpair, rfl⟩ := List.mem_map.1 hmem
    obtain ⟨p, rfl⟩ := exists_param_of_mem_sortedPairs hpair
    exact pairText_encodePair p
  -- the equals sign between name and value is the first one of its piece
  have hread : ∀ params, (sortedPairs params).map (Text.splitOnce '=' ∘ pairText) =
      (sortedPairs params).map some := by
    intro params
    refine List.map_congr_left fun pair hpair => ?_
    obtain ⟨p, rfl⟩ := exists_param_of_mem_sortedPairs hpair
    exact splitOnce_pairText p
  have htexts : (sortedPairs params).map pairText = (sortedPairs params').map pairText :=
    Text.join_injective (hpieces params) (hpieces params') (String.ofList_inj.1 h)
  have hsome : (sortedPairs params).map some = (sortedPairs params').map some := by
    rw [← hread, ← hread, ← List.map_map, ← List.map_map, htexts]
  exact List.map_injective_iff.2 (fun _ _ => Option.some.inj) hsome

/-! ## Canonical requests -/

/-- What a signature speaks about. -/
structure CanonicalRequest where
  /-- The method in upper case. -/
  method : List Char
  /-- The normalized address. -/
  address : String
  /-- The parameters of the request and of the query, without the signature. -/
  params : Multiset Param

/-- The canonical form of a request. -/
def canonical (method url : String) (params : List Param) : Except AuthError CanonicalRequest :=
  (normalizeUrl url).map fun (address, queryParams) =>
    ⟨method.toList.map Char.toUpper, address, signedParams (params ++ queryParams)⟩

/-- The text of a canonical request, made of any parameters that it stands for. -/
def baseText (method : List Char) (address : String) (params : List Param) : String :=
  String.ofList (Text.join ['&']
    [Percent.oauthEncode method, Percent.oauthEncode address.toList,
      Percent.oauthEncode (normalizeParams params).toList])

theorem baseText_eq_iff {method method' : List Char} {address address' : String}
    {params params' : List Param} :
    baseText method address params = baseText method' address' params' ↔
      method = method' ∧ address = address' ∧
        (signedParams params).Perm (signedParams params') := by
  rw [← sortedPairs_eq_iff]
  constructor
  · intro h
    -- no part contains an ampersand, so the parts are found again between the ampersands
    have hjoin := congrArg (Text.split '&') (String.ofList_inj.1 h)
    have hpieces : ∀ a b c : List Char, ∀ piece ∈ [Percent.oauthEncode a, Percent.oauthEncode b,
        Percent.oauthEncode c], '&' ∉ piece := by
      intro a b c piece hmem
      simp only [List.mem_cons, List.not_mem_nil, or_false] at hmem
      rcases hmem with rfl | rfl | rfl
      all_goals exact Percent.notMem_oauthEncode (by decide) (by decide) _
    rw [Text.split_join (by nofun) (hpieces _ _ _), Text.split_join (by nofun) (hpieces _ _ _)]
      at hjoin
    simp only [List.cons.injEq, and_true] at hjoin
    obtain ⟨hmethod, haddress, hparams⟩ := hjoin
    refine ⟨Percent.oauthEncode_injective hmethod, ?_, ?_⟩
    · exact String.toList_inj.1 (Percent.oauthEncode_injective haddress)
    · exact normalizeParams_injective
        (String.toList_inj.1 (Percent.oauthEncode_injective hparams))
  · rintro ⟨rfl, rfl, hparams⟩
    rw [baseText, baseText, normalizeParams, normalizeParams, hparams]

/-- A base string exists exactly if the address can be normalized. -/
theorem baseString_eq_ok_iff {method url base : String} {params : List Param} :
    baseString method url params = .ok base ↔
      ∃ address query, normalizeUrl url = .ok (address, query) ∧
        base = baseText (method.toList.map Char.toUpper) address (params ++ query) := by
  show (normalizeUrl url).map (fun (address, query) =>
    baseText (method.toList.map Char.toUpper) address (params ++ query)) = .ok base ↔ _
  cases normalizeUrl url with
  | error e => simp [Except.map]
  | ok parts =>
    obtain ⟨address, query⟩ := parts
    simp [Except.map, eq_comm]

/-- So does a canonical request. -/
theorem canonical_eq_ok_iff {method url : String} {params : List Param} {c : CanonicalRequest} :
    canonical method url params = .ok c ↔
      ∃ address query, normalizeUrl url = .ok (address, query) ∧
        c = ⟨method.toList.map Char.toUpper, address, signedParams (params ++ query)⟩ := by
  unfold canonical
  cases normalizeUrl url with
  | error e => simp [Except.map]
  | ok parts =>
    obtain ⟨address, query⟩ := parts
    simp [Except.map, eq_comm]

/-- Equal base strings are base strings of the same canonical request, and the other way round. -/
theorem baseString_eq_iff {method url method' url' base base' : String}
    {params params' : List Param} (h : baseString method url params = .ok base)
    (h' : baseString method' url' params' = .ok base') :
    base = base' ↔ canonical method url params = canonical method' url' params' := by
  obtain ⟨address, query, hurl, rfl⟩ := baseString_eq_ok_iff.1 h
  obtain ⟨address', query', hurl', rfl⟩ := baseString_eq_ok_iff.1 h'
  rw [canonical_eq_ok_iff.2 ⟨address, query, hurl, rfl⟩,
    canonical_eq_ok_iff.2 ⟨address', query', hurl', rfl⟩, baseText_eq_iff]
  simp only [Except.ok.injEq, CanonicalRequest.mk.injEq, Multiset.coe_eq_coe]

/-- The order of the parameters does not matter, for a base string as little as for its absence. -/
theorem baseString_of_perm {params params' : List Param} (h : params.Perm params')
    (method url : String) : baseString method url params' = baseString method url params := by
  show (normalizeUrl url).map (fun (address, query) =>
      baseText (method.toList.map Char.toUpper) address (params' ++ query)) =
    (normalizeUrl url).map fun (address, query) =>
      baseText (method.toList.map Char.toUpper) address (params ++ query)
  refine congrArg ((normalizeUrl url).map ·) (funext fun parts => ?_)
  exact baseText_eq_iff.2 ⟨rfl, rfl, (h.symm.append_right parts.2).filter _⟩

/-- A base string depends on the canonical request only. -/
theorem baseString_of_canonical_eq {method url method' url' base : String}
    {params params' : List Param}
    (hcanonical : canonical method' url' params' = canonical method url params)
    (h : baseString method url params = .ok base) : baseString method' url' params' = .ok base := by
  obtain ⟨address, query, hurl, -⟩ := baseString_eq_ok_iff.1 h
  obtain ⟨address', query', hurl', -⟩ :=
    canonical_eq_ok_iff.1 (hcanonical.trans (canonical_eq_ok_iff.2 ⟨address, query, hurl, rfl⟩))
  have h' : baseString method' url' params' = .ok _ :=
    baseString_eq_ok_iff.2 ⟨address', query', hurl', rfl⟩
  rw [h', (baseString_eq_iff h' h).2 hcanonical]

end Gatehouse.OAuth
