import Gatehouse.OAuth.BaseString
import Gatehouse.Proofs.Text.Split
import Gatehouse.Proofs.Uri

/-!
# The path of a normalized address

A normalized address is put together from the parts of an address, and its path can be read off
again: it begins at the first slash after the authority.

- `addressPath`: the path of a normalized address.
- `normalizeUrl_eq_ok`: what an address is taken apart into when it is normalized.
- `normalizeUrl_congr`: what follows a fragment mark does not matter.
- `SignsPath`: addresses that are signed for a path and bring no parameters of their own.
- `signsPath_of_parts`: an address that is put together from an authority and a path.
- `signsPath_host_iff`: an address that is put together from a text of unknown origin and a path.
-/

namespace Gatehouse.OAuth

open Uri

/-- The path of a normalized address. -/
def addressPath (address : String) : List Char :=
  ((address.toList.dropWhile (· ≠ ':')).drop 3).dropWhile (· ≠ '/')

/-- The parameters of a query, if there is one. -/
def queryParams (query : Option (List Char)) : List Param :=
  (query.map Form.parse).getD []

/-- An address is signed for a path if this is the path of its normalized form, and if the address
has no parameters. -/
def SignsPath (url : String) (path : String) : Prop :=
  ∃ address, normalizeUrl url = .ok (address, []) ∧ addressPath address = path.toList

/-! ## Parts of normalized addresses -/

/-- A host contains no slash if its authority contains none. -/
theorem slash_notMem_host {authority : List Char} (h : '/' ∉ authority) :
    '/' ∉ host authority := by
  intro hmem
  rcases mem_host hmem with hauthority | hbracket
  · exact h hauthority
  · exact absurd hbracket (by decide)

theorem slash_notMem_portSuffix (scheme : List Char) (port : Option Nat) :
    '/' ∉ portSuffix scheme port := by
  unfold portSuffix
  split
  · nofun
  · split
    · nofun
    · intro hmem
      rcases List.mem_cons.1 hmem with heq | hdigit
      · exact absurd heq (by decide)
      · exact absurd (Nat.isDigit_of_mem_toDigits (by decide) (by decide) hdigit) (by decide)

/-- The path begins at the first slash after what stands between scheme and path. -/
theorem addressPath_of_parts {scheme front : List Char} (path : List Char) (hscheme : ':' ∉ scheme)
    (hfront : '/' ∉ front) :
    addressPath (String.ofList (scheme ++ "://".toList ++ (front ++ '/' :: path))) =
      '/' :: path := by
  have hdrop : (scheme ++ "://".toList ++ (front ++ '/' :: path)).dropWhile (· ≠ ':') =
      "://".toList ++ (front ++ '/' :: path) := by
    rw [List.append_assoc, List.dropWhile_append_of_pos (decide_ne_of_notMem hscheme)]
    rfl
  rw [addressPath, String.toList_ofList, hdrop]
  show (front ++ '/' :: path).dropWhile (· ≠ '/') = _
  rw [List.dropWhile_append_of_pos (decide_ne_of_notMem hfront)]
  rfl

/-- An address is normalized part by part. -/
theorem normalizeUrl_eq_ok {url address : String} {params : List Param}
    (h : normalizeUrl url = .ok (address, params)) :
    ∃ scheme rest authority target,
      splitScheme (withoutFragment url.toList) = some (some scheme, rest) ∧
      splitAuthority rest = some (authority, target) ∧
      addressPath address = targetPath target ∧ params = queryParams (targetQuery target) := by
  unfold normalizeUrl at h
  split at h
  · next u scheme authority path query hparse =>
    obtain ⟨scheme, rest, authority, target, hscheme, hauthority, hu⟩ :=
      parse_eq_some hparse (by nofun)
    cases hu
    obtain ⟨rfl, rfl⟩ := Prod.mk.inj (Except.ok.inj h)
    rw [String.toList_ofList] at hscheme
    refine ⟨scheme, rest, authority, target, hscheme, hauthority, ?_, ?_⟩
    · -- nothing in front of the path contains a slash, but for those after the scheme
      obtain ⟨path, hpath⟩ := targetPath_eq_cons fun _ _ => head_of_splitAuthority hauthority
      have hcolon : ':' ∉ scheme.map Char.toLower := notMem_map_toLower (by decide)
        fun hmem => (isScheme_of_splitScheme hscheme).ne_colon hmem rfl
      have hhost : '/' ∉ (host authority).map Char.toLower := notMem_map_toLower (by decide)
        (slash_notMem_host ((splitAuthority_eq_some hauthority).1.notMem (by decide)))
      have hport := slash_notMem_portSuffix (scheme.map Char.toLower) (port authority)
      have hne : (String.ofList ('/' :: path)).isEmpty = false := by
        rw [String.isEmpty_eq_false_iff, Ne, ← String.toList_inj, String.toList_ofList]
        nofun
      have hread := addressPath_of_parts path hcolon
        (fun hmem => (List.mem_append.1 hmem).elim hhost hport)
      simp only [hpath, String.toList_ofList, hne, Bool.false_eq_true, if_false]
      rw [List.append_assoc, List.append_assoc, ← List.append_assoc (List.map _ (host _))]
      exact hread
    · cases targetQuery target with
      | none => rfl
      | some query => simp [queryParams]
  · cases h

/-! ## Addresses that are put together -/

/-- What follows a fragment mark does not matter. -/
theorem normalizeUrl_congr {url url' : String}
    (h : withoutFragment url.toList = withoutFragment url'.toList)
    (parts : String × List Param) :
    normalizeUrl url = .ok parts ↔ normalizeUrl url' = .ok parts := by
  unfold normalizeUrl
  rw [h]
  split
  · rfl
  · simp

theorem signsPath_congr {url url' path : String}
    (h : withoutFragment url.toList = withoutFragment url'.toList) :
    SignsPath url path ↔ SignsPath url' path := by
  unfold SignsPath
  simp only [normalizeUrl_congr h]

/-- Whether an address that can be normalized is signed for a path depends on what follows its
authority. -/
theorem signsPath_iff_target {url address path : String} {params : List Param}
    {target : List Char} (h : normalizeUrl url = .ok (address, params))
    (haddress : addressPath address = targetPath target)
    (hparams : params = queryParams (targetQuery target)) :
    SignsPath url path ↔
      targetPath target = path.toList ∧ queryParams (targetQuery target) = [] := by
  constructor
  · rintro ⟨address', h', hpath⟩
    rw [h] at h'
    cases h'
    exact ⟨haddress ▸ hpath, hparams.symm⟩
  · rintro ⟨hpath, hnone⟩
    exact ⟨address, by rw [h, hparams, hnone], haddress.trans hpath⟩

/-- What follows the authority of an address without fragment that is put together from a scheme
and a rest. -/
theorem normalizeUrl_append {url address : String} {params : List Param}
    {scheme rest : List Char} (hscheme : IsScheme scheme)
    (hurl : withoutFragment url.toList = scheme ++ ':' :: '/' :: '/' :: rest)
    (h : normalizeUrl url = .ok (address, params)) :
    ∃ authority target, splitAuthority rest = some (authority, target) ∧
      addressPath address = targetPath target ∧ params = queryParams (targetQuery target) := by
  obtain ⟨scheme', rest', authority, target, hsplit, hauthority, haddress, hparams⟩ :=
    normalizeUrl_eq_ok h
  rw [hurl] at hsplit
  rw [splitScheme_append hscheme hsplit] at hauthority
  exact ⟨authority, target, hauthority, haddress, hparams⟩

/-- An address that is put together from a scheme, an authority and a path is signed for that
path. -/
theorem signsPath_of_parts {url address path : String} {params : List Param}
    {scheme authority : List Char} (hscheme : IsScheme scheme) (hauthority : IsUnended authority)
    (hquery : '?' ∉ path.toList) (hfragment : '#' ∉ path.toList)
    (hslash : path.toList.head? = some '/')
    (hurl : withoutFragment url.toList =
      scheme ++ ':' :: '/' :: '/' :: (authority ++ path.toList))
    (h : normalizeUrl url = .ok (address, params)) : SignsPath url path := by
  obtain ⟨authority', target, hsplit, haddress, hparams⟩ := normalizeUrl_append hscheme hurl h
  have hends : ∀ c rest, path.toList = c :: rest → endsAuthority c = true := by
    intro c rest heq
    rw [heq] at hslash
    cases hslash
    rfl
  obtain ⟨-, rfl⟩ := splitAuthority_append hauthority hends hsplit
  have hne : path.toList ≠ [] := by
    intro hnil
    rw [hnil] at hslash
    cases hslash
  obtain ⟨hpath, hnone⟩ := targetPath_of_path hquery hfragment hne
  exact (signsPath_iff_target h haddress hparams).2 ⟨hpath, by rw [hnone]; rfl⟩

/-- A query that holds anything but ampersands has parameters. -/
theorem parse_ne_nil {s : List Char} {c : Char} (h : c ∈ s) (hc : c ≠ '&') :
    Form.parse s ≠ [] := by
  obtain ⟨piece, hpiece, hmem⟩ := Text.exists_mem_split h hc
  intro hnil
  rw [Form.parse, List.map_eq_nil_iff, List.filter_eq_nil_iff] at hnil
  have hempty := hnil piece hpiece
  cases piece with
  | nil => cases hmem
  | cons d piece => exact hempty rfl

/-- If something stands between the authority and a path, then it is not that path alone that is
signed: the path is longer, or it has become part of a query. -/
theorem target_of_append {front path : List Char} (hne : front ≠ []) (hfragment : '#' ∉ front)
    (hpath : '#' ∉ path) (hslash : '/' ∈ path) (hquery : '?' ∉ path) :
    ¬(targetPath (front ++ path) = path ∧ queryParams (targetQuery (front ++ path)) = []) := by
  rintro ⟨hsame, hnone⟩
  have hplain : '#' ∉ front ++ path := fun hmem =>
    (List.mem_append.1 hmem).elim hfragment hpath
  by_cases hmark : '?' ∈ front
  · -- the path is part of the query, and its slash makes a parameter there
    obtain ⟨before, after, rfl, hbefore⟩ := List.eq_append_cons_of_mem hmark
    rw [List.append_assoc, List.cons_append] at hplain hnone
    rw [targetQuery_append hbefore hplain] at hnone
    exact parse_ne_nil (List.mem_append_right after hslash) (by decide) hnone
  · -- the path has become longer
    have hall : '?' ∉ front ++ path := fun hmem => (List.mem_append.1 hmem).elim hmark hquery
    rw [(targetPath_of_path hall hplain (by simp [hne])).1] at hsame
    have hlength := congrArg List.length hsame
    rw [List.length_append] at hlength
    exact hne (List.length_eq_zero_iff.1 (by omega))

/-- A text that is taken for a host, without a fragment mark, and a path: the address is signed for
the path if and only if the path begins with a slash and the text contains no slash and no
question mark. -/
theorem signsPath_host_iff {url address path : String} {params : List Param} {host : List Char}
    (hhost : '#' ∉ host) (hquery : '?' ∉ path.toList) (hfragment : '#' ∉ path.toList)
    (hurl : url.toList = "http://".toList ++ (host ++ path.toList))
    (h : normalizeUrl url = .ok (address, params)) :
    SignsPath url path ↔ '/' ∉ host ∧ '?' ∉ host ∧ path.toList.head? = some '/' := by
  have hplain : '#' ∉ host ++ path.toList := fun hmem =>
    (List.mem_append.1 hmem).elim hhost hfragment
  have hcut : withoutFragment url.toList =
      "http".toList ++ ':' :: '/' :: '/' :: (host ++ path.toList) := by
    rw [hurl, withoutFragment_append_of_notMem (by decide), withoutFragment_of_notMem hplain]
    rfl
  constructor
  · intro hsigns
    obtain ⟨authority, target, hsplit, haddress, hparams⟩ :=
      normalizeUrl_append isScheme_http hcut h
    have hends : ∀ c rest, target = c :: rest → endsAuthority c = true :=
      fun _ _ htarget => head_of_splitAuthority hsplit htarget
    have hboth := (signsPath_iff_target h haddress hparams).1 hsigns
    obtain ⟨rest, hrest⟩ := targetPath_eq_cons hends
    rw [hboth.1] at hrest
    have hslash : '/' ∈ path.toList := hrest ▸ List.mem_cons_self
    have hunended : IsUnended host := by
      intro c hc
      cases hend : endsAuthority c with
      | false => rfl
      | true =>
        -- the authority ends within the text, and the rest of the text precedes the path
        have hfront : host.dropWhile (fun c => !endsAuthority c) ≠ [] := by
          intro hnil
          have hall := List.dropWhile_eq_nil_iff.1 hnil c hc
          rw [hend] at hall
          cases hall
        have htarget := (splitAuthority_eq_some hsplit).2.2
        rw [List.dropWhile_append, if_neg (by simpa using hfront)] at htarget
        rw [htarget] at hboth
        exact absurd hboth (target_of_append hfront
          (fun hmem => hhost (List.dropWhile_subset _ hmem)) hfragment hslash hquery)
    exact ⟨hunended.notMem (by decide), hunended.notMem (by decide), by rw [hrest]; rfl⟩
  · rintro ⟨hslash, hmark, hhead⟩
    have hunended : IsUnended host := by
      intro c hc
      simp only [endsAuthority, Bool.or_eq_false_iff, beq_eq_false_iff_ne]
      exact ⟨⟨fun heq => hslash (heq ▸ hc), fun heq => hmark (heq ▸ hc)⟩,
        fun heq => hhost (heq ▸ hc)⟩
    exact signsPath_of_parts isScheme_http hunended hquery hfragment hhead hcut h

end Gatehouse.OAuth
