import Gatehouse.Proofs.OAuth.Address
import Gatehouse.Proofs.OAuth.SignedUrl

/-!
# What is read from a signed address

A signed address is an address again, and whoever receives it normalizes it as the signer
normalized the address it was made from. The signer cuts an address at its first question mark,
the reader at its first number sign. Where the number sign comes first, what the signer adds is
part of the fragment, and the reader finds none of it.

- `isQueryChar_of_mem_render`: a form can stand in a query.
- `normalizeUrl_withQuery`: an address with a form behind it.
- `size_signed_le`: the size of a signed address.
- `withoutFragment_signed`: a signed address whose fragment comes first.
- `signed_address_reads_back_iff`: which signed addresses are read with all that was signed.
-/

namespace Gatehouse.OAuth

open Uri

/-! ## Forms in queries -/

theorem isQueryChar_of_isAlphanum {c : Char} (h : c.isAlphanum = true) : isQueryChar c = true := by
  obtain ⟨hlow, hhigh⟩ := Percent.toNat_of_isAlphanum h
  -- between the digits and the letters stand two characters that no query contains
  have hne : ∀ d : Char, d.isAlphanum = false → c.toNat ≠ d.toNat := by
    intro d hd heq
    rw [Char.toNat_inj.1 heq, hd] at h
    cases h
  have hless : c.toNat ≠ 0x3C := hne '<' (by decide)
  have hgreater : c.toNat ≠ 0x3E := hne '>' (by decide)
  simp only [isQueryChar, Bool.or_eq_true, Bool.and_eq_true, beq_iff_eq, decide_eq_true_eq]
  omega

/-- A form can stand in a query. -/
theorem isQueryChar_of_mem_render {c : Char} {params : List Param} (h : c ∈ Form.render params) :
    isQueryChar c = true := by
  have hmarks : "%+=&".toList.all isQueryChar = true := by decide
  rcases Form.mem_render h with hstays | hmark
  · simp only [Form.stays, Percent.isAlphanumeric, Bool.or_eq_true, beq_iff_eq] at hstays
    rcases hstays with (((halnum | rfl) | rfl) | rfl) | rfl
    · exact isQueryChar_of_isAlphanum halnum
    all_goals decide
  · exact List.all_eq_true.1 hmarks c hmark

theorem numberSign_notMem_render (params : List Param) : '#' ∉ Form.render params :=
  fun hmem => absurd (isQueryChar_of_mem_render hmem) (by decide)

/-- An address without query and fragment, and a form behind it. -/
theorem normalizeUrl_withQuery {base address : String}
    (h : normalizeUrl base = .ok (address, [])) (hmark : '?' ∉ base.toList)
    (hfragment : '#' ∉ base.toList) (params : List Param) :
    let whole := base ++ "?" ++ String.ofList (Form.render params)
    normalizeUrl whole =
      if (Utf8.encode whole.toList).length ≤ maxSize then .ok (address, params)
      else .error (.invalidRequestUrl whole) := by
  intro whole
  have htext : whole.toList = base.toList ++ '?' :: Form.render params := by
    simp [whole]
  have hplain : '#' ∉ whole.toList := by
    rw [htext, List.mem_append, List.mem_cons]
    rintro (hbase | hmark | hform)
    · exact hfragment hbase
    · cases hmark
    · exact numberSign_notMem_render params hform
  unfold normalizeUrl at h
  split at h
  · next scheme authority path query hparse =>
    obtain ⟨rfl, -⟩ := Prod.mk.inj (Except.ok.inj h)
    rw [withoutFragment_of_notMem hfragment] at hparse
    have hread := parse_withQuery (by nofun) hparse hmark (htext ▸ hplain)
      (List.all_eq_true.2 fun _ => isQueryChar_of_mem_render)
    rw [← htext] at hread
    rw [normalizeUrl, withoutFragment_of_notMem hplain, hread]
    by_cases hsmall : (Utf8.encode whole.toList).length ≤ maxSize
    · rw [if_pos hsmall, if_pos hsmall]
      simp only [Option.map_some, Option.getD_some, String.toList_ofList, Form.parse_render]
    · rw [if_neg hsmall, if_neg hsmall]
  · cases h

/-! ## Fragments in front of queries -/

/-- If the fragment of an address begins in front of its query, then all that is written behind
the base belongs to the fragment. -/
theorem withoutFragment_signed {url : String} (h : '#' ∈ (baseUrl url).toList) (text : String) :
    withoutFragment (baseUrl url ++ text).toList = withoutFragment url.toList := by
  have hbase : (baseUrl url).toList = withoutQuery url.toList := by
    rw [baseUrl, String.toList_ofList]
    rfl
  have hcut : url.toList = (baseUrl url).toList ++ url.toList.dropWhile (· ≠ '?') := by
    rw [hbase]
    exact (List.takeWhile_append_dropWhile (p := (· ≠ '?')) (l := url.toList)).symm
  rw [String.toList_append, withoutFragment_append_of_mem h]
  conv => rhs; rw [hcut, withoutFragment_append_of_mem h]

/-- An address whose fragment begins in front of its query has no parameters. -/
theorem params_eq_nil_of_fragment {url address : String} {params : List Param}
    (h : normalizeUrl url = .ok (address, params)) (hfragment : '#' ∈ (baseUrl url).toList) :
    params = [] := by
  have hsame := withoutFragment_signed hfragment ""
  rw [String.append_empty] at hsame
  have hbase := (normalizeUrl_congr hsame (address, params)).2 h
  rw [normalizeUrl_baseUrl h] at hbase
  cases hbase
  rfl

/-! ## Sizes -/

/-- A digest has twenty bytes, and the signature made of it twenty-eight characters. -/
theorem length_signature (text secret token : String) :
    (sign .hmacSha1 text secret token).toList.length = 28 := by
  have hdigest : ∀ message, (Hash.sha1 message).length = 20 := fun _ => rfl
  rw [sign, String.toList_ofList, Base64.length_encode, Hash.hmacSha1, hdigest]

/-- How large a signed address is, up to the signature, whose length does not vary. -/
theorem size_signed_le (base : String) (params : List Param) (key nonce : String)
    (timestamp : Int) (text secret token : String) :
    let query := signedQuery params key nonce timestamp (sign .hmacSha1 text secret token)
    (Utf8.encode (base ++ "?" ++ String.ofList (Form.render query)).toList).length ≤
      (Utf8.encode base.toList).length +
        (Utf8.encode (Form.render (params ++ protocolParams key nonce timestamp))).length +
        2100 := by
  intro query
  let last : Param := ⟨signatureName, sign .hmacSha1 text secret token⟩
  have hne : params ++ protocolParams key nonce timestamp ≠ [] :=
    List.append_ne_nil_of_right_ne_nil params (List.cons_ne_nil _ _)
  have hform : Form.render query =
      Form.render (params ++ protocolParams key nonce timestamp) ++ '&' :: Form.renderPair last :=
    Form.render_concat hne last
  have hlast : ('&' :: Form.renderPair last).length ≤ 518 := by
    have hname := Form.length_encode_le signatureName.toList
    have hlength : signatureName.toList.length = 15 := by decide
    have hvalue := Form.length_encode_le (sign .hmacSha1 text secret token).toList
    rw [length_signature] at hvalue
    simp only [Form.renderPair, last, List.length_append, List.length_cons]
    omega
  have hbytes := Utf8.length_encode_le ('&' :: Form.renderPair last)
  have hmark : (Utf8.encode "?".toList).length = 1 := rfl
  simp only [String.toList_append, String.toList_ofList, hform, Utf8.encode_append,
    List.length_append]
  omega

/-! ## The result -/

/-- What is read from a signed address. The signature stands behind the first question mark, and
an address that is read back has the normalized form of the one that was signed, and exactly the
parameters of its query, in order, and then those of the protocol with the signature. This is so
if and only if no number sign stands in front of the query, and the signed address is not too
long. Otherwise the reader does not find the signature: behind a number sign it is part of the
fragment, and an overlong address is refused. -/
theorem signed_address_reads_back_iff {method url key secret nonce signed : String}
    {timestamp : Int} (h : signUrl method url key secret timestamp nonce = .ok signed) :
    ∃ address params signature,
      normalizeUrl url = .ok (address, params) ∧
      signature =
        sign .hmacSha1 (signedText method address params key nonce timestamp) secret "" ∧
      Text.splitOnce '?' signed.toList = some ((baseUrl url).toList,
        Form.render (signedQuery params key nonce timestamp signature)) ∧
      (normalizeUrl signed = .ok (address, signedQuery params key nonce timestamp signature) ↔
        '#' ∉ (baseUrl url).toList ∧ (Utf8.encode signed.toList).length ≤ maxSize) ∧
      ('#' ∉ (baseUrl url).toList → '#' ∉ signed.toList ∧
        (maxSize < (Utf8.encode signed.toList).length →
          normalizeUrl signed = .error (.invalidRequestUrl signed))) ∧
      ('#' ∈ (baseUrl url).toList → params = [] ∧ normalizeUrl signed = .ok (address, []) ∧
        withoutFragment signed.toList = withoutFragment url.toList) := by
  obtain ⟨address, params, hurl⟩ := exists_normalizeUrl_of_signUrl h
  rw [signUrl_of_normalizeUrl hurl] at h
  obtain rfl := Except.ok.inj h
  let signature := sign .hmacSha1 (signedText method address params key nonce timestamp) secret ""
  let query := signedQuery params key nonce timestamp signature
  refine ⟨address, params, signature, hurl, rfl, splitOnce_signed url _, ?_⟩
  have hmark : '?' ∉ (baseUrl url).toList := by
    rw [baseUrl, String.toList_ofList]
    exact notMem_withoutQuery url.toList
  by_cases hfragment : '#' ∈ (baseUrl url).toList
  · -- the reader does not see what was added
    have hcut := withoutFragment_signed hfragment ("?" ++ String.ofList (Form.render query))
    rw [← String.append_assoc] at hcut
    have hnone := params_eq_nil_of_fragment hurl hfragment
    have hread := (normalizeUrl_congr hcut (address, params)).2 hurl
    have hunsigned : params ≠ query := by simp [query, signedQuery]
    refine ⟨⟨fun hall => ?_, fun hnot => absurd hfragment hnot.1⟩,
      fun hnot => absurd hfragment hnot, fun _ => ⟨hnone, hnone ▸ hread, hcut⟩⟩
    rw [hread] at hall
    exact absurd (Prod.mk.inj (Except.ok.inj hall)).2 hunsigned
  · -- the reader sees all of it
    have hread := normalizeUrl_withQuery (normalizeUrl_baseUrl hurl) hmark hfragment query
    refine ⟨⟨fun hall => ⟨hfragment, ?_⟩, fun hsmall => ?_⟩, fun _ => ⟨?_, fun hlong => ?_⟩,
      fun hmem => absurd hmem hfragment⟩
    · by_contra hlong
      rw [hread, if_neg hlong] at hall
      cases hall
    · rw [hread, if_pos hsmall.2]
    · intro hmem
      simp only [String.toList_append, String.toList_ofList, List.mem_append] at hmem
      rcases hmem with (hbase | hquestion) | hform
      · exact hfragment hbase
      · exact absurd hquestion (by decide)
      · exact numberSign_notMem_render _ hform
    · rw [hread, if_neg (Nat.not_le.2 hlong)]

/-- An address with a port, a query with a repeated name and a fragment behind it is read back. -/
theorem signed_address_reads_back_sample :
    ∃ signed signature,
      signUrl "get" "HTTP://h:80/p?q=a+b&q=%C3%A9#top" "c" "s" 1000 "n" = .ok signed ∧
      normalizeUrl "HTTP://h:80/p?q=a+b&q=%C3%A9#top" =
        .ok ("http://h/p", [⟨"q", "a b"⟩, ⟨"q", "é"⟩]) ∧
      normalizeUrl signed =
        .ok ("http://h/p", signedQuery [⟨"q", "a b"⟩, ⟨"q", "é"⟩] "c" "n" 1000 signature) := by
  have hurl : normalizeUrl "HTTP://h:80/p?q=a+b&q=%C3%A9#top" =
      .ok ("http://h/p", [⟨"q", "a b"⟩, ⟨"q", "é"⟩]) := by decide +kernel
  have hsigned := signUrl_of_normalizeUrl hurl "get" "c" "s" "n" 1000
  obtain ⟨address, params, signature, hparts, rfl, hsplit, hread, -, -⟩ :=
    signed_address_reads_back_iff hsigned
  rw [hurl] at hparts
  obtain ⟨rfl, rfl⟩ := Prod.mk.inj (Except.ok.inj hparts)
  have hsize := size_signed_le (baseUrl "HTTP://h:80/p?q=a+b&q=%C3%A9#top")
    [⟨"q", "a b"⟩, ⟨"q", "é"⟩] "c" "n" 1000
    (signedText "get" "http://h/p" [⟨"q", "a b"⟩, ⟨"q", "é"⟩] "c" "n" 1000) "s" ""
  refine ⟨_, _, hsigned, hurl, hread.2 ⟨by decide, Nat.le_trans hsize ?_⟩⟩
  decide +kernel

/-- With the fragment in front of its query, an address is signed as if there were none, but the
one who receives it finds no signature: all parameters stand in the fragment. -/
theorem signature_within_fragment :
    ∃ signed query,
      signUrl "get" "http://h/p#f" "c" "s" 1000 "n" = .ok signed ∧
      signed = "http://h/p#f" ++ "?" ++ query ∧
      normalizeUrl "http://h/p#f" = .ok ("http://h/p", []) ∧
      normalizeUrl signed = .ok ("http://h/p", []) ∧
      ∀ signature, normalizeUrl signed ≠
        .ok ("http://h/p", signedQuery [] "c" "n" 1000 signature) := by
  have hurl : normalizeUrl "http://h/p#f" = .ok ("http://h/p", []) := by decide +kernel
  have hbase : baseUrl "http://h/p#f" = "http://h/p#f" := by decide
  have hread : ∀ query, normalizeUrl ("http://h/p#f" ++ "?" ++ query) =
      .ok ("http://h/p", []) := by
    intro query
    have hcut := @withoutFragment_signed "http://h/p#f" (by decide) ("?" ++ query)
    rw [hbase, ← String.append_assoc] at hcut
    exact (normalizeUrl_congr hcut _).2 hurl
  have hsigned := signUrl_of_normalizeUrl hurl "get" "c" "s" "n" 1000
  rw [hbase] at hsigned
  refine ⟨_, _, hsigned, rfl, hurl, hread _, fun signature hall => ?_⟩
  rw [hread] at hall
  exact absurd (Prod.mk.inj (Except.ok.inj hall)).2 (List.cons_ne_nil _ _).symm

end Gatehouse.OAuth
