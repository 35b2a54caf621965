import Gatehouse.Proofs.Text.Utf8
import Gatehouse.Proofs.Uri

/-!
# Absolute addresses

An absolute address is written in one way: a scheme with its colon and slashes, an authority, and
a target. Which texts are absolute addresses can therefore be told without the reader, and an
address that is changed in one of its parts is read as before in the others.

- `WritesScheme`: what can be written for a scheme.
- `IsAbsolute`: the parts of an absolute address, and what is asked of each.
- `parse_eq_some_iff`: the addresses with a scheme are the absolute ones, and their parts are read.
- `parse_withoutQuery`, `parse_withQuery`: an address without its query, and one with a new query.
-/

namespace Gatehouse.Uri

/-! ## Schemes as they are written -/

theorem startsWith_append {front start : List Char} (h : front.map Char.toLower = start)
    (t : List Char) : startsWith (front ++ t) start = true := by
  have hlen : start.length = front.length := by rw [← h, List.length_map]
  rw [startsWith, hlen, List.take_left, h, beq_self_eq_true]

theorem map_take_of_startsWith {s start : List Char} (h : startsWith s start = true) :
    (s.take start.length).map Char.toLower = start :=
  beq_iff_eq.1 h

/-- A scheme in front of a colon is the one that a text starts with, read in lower case. -/
theorem map_toLower_of_startsWith {scheme rest after : List Char} (hs : IsScheme scheme)
    (start : List Char) (hstart : ':' ∉ start)
    (h : startsWith (scheme ++ ':' :: rest) (start ++ ':' :: after) = true) :
    scheme.map Char.toLower = start := by
  have hlen := length_eq_of_startsWith hs start hstart h
  have htake := congrArg (List.take start.length) (map_take_of_startsWith h)
  rwa [List.take_left, ← List.map_take, List.take_take, List.length_append,
    Nat.min_eq_left (Nat.le_add_right _ _), ← hlen, List.take_left] at htake

/-- What is written in front of the authority of an address with a given scheme. -/
inductive WritesScheme : List Char → List Char → Prop where
  | http {written : List Char} (h : written.map Char.toLower = "http://".toList) :
    WritesScheme written "http".toList
  | https {written : List Char} (h : written.map Char.toLower = "https://".toList) :
    WritesScheme written "https".toList
  | other {scheme : List Char} (hs : IsScheme scheme) (hlen : scheme.length ≤ 64)
    (hhttp : scheme.map Char.toLower ≠ "http".toList)
    (hhttps : scheme.map Char.toLower ≠ "https".toList) :
    WritesScheme (scheme ++ "://".toList) scheme

theorem splitScheme_of_writes {written scheme rest : List Char} (h : WritesScheme written scheme)
    (hrest : rest ≠ []) : splitScheme (written ++ rest) = some (some scheme, rest) := by
  cases h with
  | http h =>
    have hlen : written.length = 7 := by simpa using congrArg List.length h
    rw [splitScheme, if_pos (startsWith_append h rest), List.drop_left' hlen]
  | https h =>
    have hlen : written.length = 8 := by simpa using congrArg List.length h
    have hhttp : ¬ startsWith (written ++ rest) "http://".toList = true := by
      intro hstart
      have htake := map_take_of_startsWith hstart
      rw [List.take_append_of_le_length (by rw [hlen]; decide), List.map_take, h] at htake
      exact absurd htake (by decide)
    rw [splitScheme, if_neg hhttp, if_pos (startsWith_append h rest), List.drop_left' hlen]
  | other hs hlen hhttp hhttps =>
    have hne : ∀ start : List Char, ':' ∉ start → scheme.map Char.toLower ≠ start →
        ¬ startsWith (scheme ++ "://".toList ++ rest) (start ++ "://".toList) = true := by
      intro start hcolon hne hstart
      rw [List.append_assoc] at hstart
      exact hne (map_toLower_of_startsWith hs start hcolon hstart)
    have htake : (scheme ++ "://".toList ++ rest).takeWhile isSchemeChar = scheme := by
      rw [List.append_assoc, List.takeWhile_append_of_pos hs]
      exact List.append_nil scheme
    have hdrop : (scheme ++ "://".toList ++ rest).dropWhile isSchemeChar =
        ':' :: '/' :: '/' :: rest := by
      rw [List.append_assoc, List.dropWhile_append_of_pos hs]
      rfl
    have hlong : ¬ (scheme ++ "://".toList ++ rest).length ≤ 3 := by
      have := List.length_pos_iff.2 hrest
      simp
      omega
    have hnohttp : ¬ startsWith _ "http://".toList = true := hne "http".toList (by decide) hhttp
    have hnohttps : ¬ startsWith _ "https://".toList = true :=
      hne "https".toList (by decide) hhttps
    rw [splitScheme, if_neg hnohttp, if_neg hnohttps, htake, hdrop]
    show (if scheme.length > 64 then none else if _ then _ else some (some scheme, rest)) = _
    rw [if_neg (Nat.not_lt.2 hlen), if_neg hlong]

theorem writes_of_splitScheme {s scheme rest : List Char}
    (h : splitScheme s = some (some scheme, rest)) :
    ∃ written, WritesScheme written scheme ∧ s = written ++ rest := by
  simp only [splitScheme] at h
  split at h
  · next hhttp =>
    cases h
    exact ⟨_, .http (map_take_of_startsWith hhttp), (List.take_append_drop 7 s).symm⟩
  · next hhttp =>
    split at h
    · next hhttps =>
      cases h
      exact ⟨_, .https (map_take_of_startsWith hhttps), (List.take_append_drop 8 s).symm⟩
    · next hhttps =>
      split at h
      · next rest' hdrop =>
        split at h
        · cases h
        · next hlen =>
          split at h
          · cases h
          · cases h
            have hs : IsScheme (s.takeWhile isSchemeChar) := fun c hc => List.mem_takeWhile_imp hc
            have hcut : s = s.takeWhile isSchemeChar ++ "://".toList ++ rest := by
              conv => lhs; rw [← List.takeWhile_append_dropWhile (p := isSchemeChar) (l := s), hdrop]
              rw [List.append_assoc]
              rfl
            have hne : ∀ start : List Char, ¬ startsWith s (start ++ "://".toList) = true →
                (s.takeWhile isSchemeChar).map Char.toLower ≠ start := by
              intro start hstart heq
              refine hstart ?_
              rw [hcut]
              refine startsWith_append ?_ rest
              rw [List.map_append, heq]
              rfl
            exact ⟨_, .other hs (Nat.not_lt.1 hlen) (hne "http".toList hhttp)
              (hne "https".toList hhttps), hcut⟩
      · cases h

theorem WritesScheme.notMem {written scheme : List Char} (h : WritesScheme written scheme) :
    '?' ∉ written := by
  have hcommon : ∀ {start : List Char}, '?' ∉ start → written.map Char.toLower = start →
      '?' ∉ written := by
    rintro _ hstart rfl hmem
    exact hstart (List.mem_map_of_mem (f := Char.toLower) hmem)
  cases h with
  | http h => exact hcommon (by decide) h
  | https h => exact hcommon (by decide) h
  | other hs =>
    intro hmem
    rcases List.mem_append.1 hmem with hscheme | hmarks
    · exact absurd (hs _ hscheme) (by decide)
    · exact absurd hmarks (by decide)

/-! ## Absolute addresses -/

/-- An address that is written as scheme, authority and what follows, and the parts of it. -/
structure IsAbsolute (written scheme authority target path : List Char)
    (query : Option (List Char)) : Prop where
  small : (Utf8.encode (written ++ (authority ++ target))).length ≤ maxSize
  writes : WritesScheme written scheme
  legal : isAuthority authority = true
  unended : IsUnended authority
  named : authority ≠ []
  ends : ∀ c rest, target = c :: rest → endsAuthority c = true
  split : splitTarget target = some (path, query)

theorem splitAuthority_of_legal {authority target : List Char}
    (hlegal : isAuthority authority = true) (hunended : IsUnended authority)
    (hends : ∀ c rest, target = c :: rest → endsAuthority c = true) :
    splitAuthority (authority ++ target) = some (authority, target) := by
  have hplain : ∀ c ∈ authority, (!endsAuthority c) = true := by
    intro c hc
    rw [hunended c hc]
    rfl
  have hstop : target.takeWhile (fun c => !endsAuthority c) = [] ∧
      target.dropWhile (fun c => !endsAuthority c) = target := by
    cases target with
    | nil => exact ⟨rfl, rfl⟩
    | cons c rest => simp [hends c rest rfl]
  simp only [splitAuthority]
  rw [List.takeWhile_append_of_pos hplain, List.dropWhile_append_of_pos hplain, hstop.1, hstop.2,
    List.append_nil, if_pos hlegal]

/-- An address with a scheme is neither a path nor an asterisk. -/
theorem parse_of_splitScheme {s scheme rest : List Char}
    (hsmall : (Utf8.encode s).length ≤ maxSize)
    (h : splitScheme s = some (some scheme, rest)) : parse (String.ofList s) = parseFull s := by
  simp only [parse, String.toList_ofList, if_neg (Nat.not_lt.2 hsmall)]
  split
  · cases h
  · cases h
  · have hnone : ∀ t : List Char, splitScheme ('/' :: t) = some (none, '/' :: t) := fun t => rfl
    rw [hnone] at h
    cases h
  · rfl

/-- An absolute address is read part by part, and no other address has a scheme. -/
theorem parse_eq_some_iff {s : List Char} {u : Uri} (hscheme : u.scheme ≠ none) :
    parse (String.ofList s) = some u ↔
      ∃ written scheme authority target path query,
        IsAbsolute written scheme authority target path query ∧
        s = written ++ (authority ++ target) ∧
        u = ⟨some (String.ofList scheme), some (String.ofList authority),
          if path.isEmpty then "/" else String.ofList path, query.map String.ofList⟩ := by
  constructor
  · intro h
    simp only [parse, String.toList_ofList] at h
    split at h
    · cases h
    · next hsize =>
      have hsmall := Nat.not_lt.1 hsize
      split at h
      · cases h
      · cases h
        exact absurd rfl hscheme
      · simp only [ofTarget, Option.map_eq_some_iff] at h
        obtain ⟨_, -, rfl⟩ := h
        exact absurd rfl hscheme
      · simp only [parseFull, Option.bind_eq_bind, Option.bind_eq_some_iff, Prod.exists] at h
        obtain ⟨scheme, rest, hsplit, authority, target, hauthority, h⟩ := h
        cases scheme with
        | none =>
          dsimp only at h
          split at h
          · cases h
            exact absurd rfl hscheme
          · cases h
        | some scheme =>
          dsimp only at h
          split at h
          · cases h
          · next hnamed =>
            simp only [ofTarget, Option.map_eq_some_iff, Prod.exists] at h
            obtain ⟨path, query, htarget, rfl⟩ := h
            obtain ⟨written, hwrites, rfl⟩ := writes_of_splitScheme hsplit
            obtain ⟨hunended, htake, hdrop⟩ := splitAuthority_eq_some hauthority
            have hrest : rest = authority ++ target := by
              rw [htake, hdrop, List.takeWhile_append_dropWhile]
            have hlegal : isAuthority authority = true := by
              simp only [splitAuthority] at hauthority
              split at hauthority
              · next hlegal =>
                cases hauthority
                exact hlegal
              · cases hauthority
            subst hrest
            exact ⟨written, scheme, authority, target, path, query,
              { small := hsmall, writes := hwrites, legal := hlegal, unended := hunended
                named := by simpa using hnamed
                ends := fun _ _ => head_of_splitAuthority hauthority
                split := htarget }, rfl, rfl⟩
  · rintro ⟨written, scheme, authority, target, path, query, habsolute, rfl, rfl⟩
    have hne : authority ++ target ≠ [] := by simp [habsolute.named]
    have hsplit := splitScheme_of_writes habsolute.writes hne
    have hauthority := splitAuthority_of_legal habsolute.legal habsolute.unended habsolute.ends
    rw [parse_of_splitScheme habsolute.small hsplit]
    simp [parseFull, hsplit, hauthority, habsolute.named, ofTarget, habsolute.split]

/-- What is left of a target without its query has the same path. -/
theorem splitTarget_withoutQuery {target path : List Char} {query : Option (List Char)}
    (h : splitTarget target = some (path, query)) :
    splitTarget (withoutQuery target) = some (path, none) := by
  obtain ⟨⟨hpath, -⟩, hlegal, -⟩ := splitTarget_eq_some_iff.1 h
  have hcut : withoutFragment (withoutQuery target) = path := by
    rw [withoutFragment_withoutQuery, hpath]
  have hplain : '?' ∉ path := hpath ▸ notMem_withoutQuery _
  have hnone : targetQuery (withoutQuery target) = none := by
    rw [targetQuery, hcut, List.dropWhile_eq_nil_iff.2 (decide_ne_of_notMem hplain)]
  rw [splitTarget_eq_some_iff, hcut, withoutQuery_of_notMem hplain, hnone]
  exact ⟨⟨rfl, rfl⟩, hlegal, rfl⟩

namespace IsAbsolute

variable {written scheme authority target path : List Char} {query : Option (List Char)}

theorem withoutQuery_eq (h : IsAbsolute written scheme authority target path query) :
    withoutQuery (written ++ (authority ++ target)) =
      written ++ (authority ++ withoutQuery target) := by
  rw [withoutQuery_append_of_notMem h.writes.notMem,
    withoutQuery_append_of_notMem (h.unended.notMem (by decide))]

/-- An absolute address without its query is an absolute address with the same other parts. -/
theorem withoutQuery (h : IsAbsolute written scheme authority target path query) :
    IsAbsolute written scheme authority (withoutQuery target) path none where
  small := by
    have hsmall := h.small
    rw [← List.takeWhile_append_dropWhile (p := (· ≠ '?')) (l := target)] at hsmall
    simp only [Utf8.encode_append, List.length_append] at hsmall ⊢
    exact Nat.le_trans (by rw [Uri.withoutQuery]; omega) hsmall
  writes := h.writes
  legal := h.legal
  unended := h.unended
  named := h.named
  ends := by
    intro c rest htarget
    cases target with
    | nil => cases htarget
    | cons d target =>
      have hd := h.ends d target rfl
      rw [Uri.withoutQuery, List.takeWhile_cons] at htarget
      split at htarget
      · cases htarget
        exact hd
      · cases htarget
  split := splitTarget_withoutQuery h.split

/-- A query can be written behind an absolute address that has none. -/
theorem withQuery (h : IsAbsolute written scheme authority target path none) {q : List Char}
    (hmark : '?' ∉ target) (hfragment : '#' ∉ target ++ '?' :: q)
    (hq : q.all isQueryChar = true)
    (hsmall : (Utf8.encode (written ++ (authority ++ (target ++ '?' :: q)))).length ≤ maxSize) :
    IsAbsolute written scheme authority (target ++ '?' :: q) path (some q) where
  small := hsmall
  writes := h.writes
  legal := h.legal
  unended := h.unended
  named := h.named
  ends := by
    intro c rest htarget
    cases target with
    | nil =>
      cases htarget
      rfl
    | cons d target =>
      cases htarget
      exact h.ends _ _ rfl
  split := by
    obtain ⟨⟨hpath, -⟩, hlegal, -⟩ := splitTarget_eq_some_iff.1 h.split
    have hplain : '#' ∉ target := fun hmem => hfragment (List.mem_append_left _ hmem)
    rw [withoutFragment_of_notMem hplain, withoutQuery_of_notMem hmark] at hpath
    have hcut : Uri.withoutQuery (target ++ '?' :: q) = target := by
      rw [withoutQuery_append_of_notMem hmark]
      exact List.append_nil target
    rw [splitTarget_eq_some_iff, withoutFragment_of_notMem hfragment, hcut,
      targetQuery_append hmark hfragment]
    exact ⟨⟨hpath, rfl⟩, hlegal, hq⟩

end IsAbsolute

/-- An absolute address without its query is read as before, but for the query. -/
theorem parse_withoutQuery {s : List Char} {u : Uri} (hscheme : u.scheme ≠ none)
    (h : parse (String.ofList s) = some u) :
    parse (String.ofList (withoutQuery s)) = some { u with query := none } := by
  obtain ⟨written, scheme, authority, target, path, query, habsolute, rfl, rfl⟩ :=
    (parse_eq_some_iff hscheme).1 h
  exact (parse_eq_some_iff (u := ⟨some _, some _, _, none⟩) hscheme).2 ⟨written, scheme, authority,
    withoutQuery target, path, none, habsolute.withoutQuery, habsolute.withoutQuery_eq, rfl⟩

/-- An address without query, behind which a query is written, is read as before, but for the
query, unless the whole has become too long. -/
theorem parse_withQuery {s q : List Char} {u : Uri} (hscheme : u.scheme ≠ none)
    (h : parse (String.ofList s) = some u) (hmark : '?' ∉ s) (hfragment : '#' ∉ s ++ '?' :: q)
    (hq : q.all isQueryChar = true) :
    parse (String.ofList (s ++ '?' :: q)) =
      if (Utf8.encode (s ++ '?' :: q)).length ≤ maxSize then
        some { u with query := some (String.ofList q) } else none := by
  obtain ⟨written, scheme, authority, target, path, query, habsolute, rfl, rfl⟩ :=
    (parse_eq_some_iff hscheme).1 h
  have hassoc : written ++ (authority ++ target) ++ '?' :: q =
      written ++ (authority ++ (target ++ '?' :: q)) := by
    rw [List.append_assoc, List.append_assoc]
  have hplain : '?' ∉ target := fun hmem =>
    hmark (List.mem_append_right _ (List.mem_append_right _ hmem))
  have hwhole : '#' ∉ target ++ '?' :: q := fun hmem =>
    hfragment (hassoc ▸ List.mem_append_right _ (List.mem_append_right _ hmem))
  have hnone : query = none := by
    rw [(splitTarget_eq_some_iff.1 habsolute.split).1.2, targetQuery,
      withoutFragment_of_notMem fun hmem => hwhole (List.mem_append_left _ hmem),
      List.dropWhile_eq_nil_iff.2 (decide_ne_of_notMem hplain)]
  subst hnone
  split
  · next hsmall =>
    rw [hassoc] at hsmall ⊢
    exact (parse_eq_some_iff (u := ⟨some _, some _, _, some _⟩) hscheme).2 ⟨written, scheme,
      authority, _, path, some q,
      habsolute.withQuery hplain hwhole hq hsmall, rfl, rfl⟩
  · next hlong =>
    rw [parse, String.toList_ofList, if_pos (Nat.not_le.1 hlong)]

end Gatehouse.Uri
