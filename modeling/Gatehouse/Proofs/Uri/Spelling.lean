import Gatehouse.Proofs.Text.Split
import Gatehouse.Proofs.Uri.Absolute
import Gatehouse.Proofs.Uri.Host

/-!
# How an address is spelled

An absolute address consists of scheme, site, port, path, query and fragment, each with the signs
that set it apart. A spelling lists these parts as they are written. Every address that is taken
apart has a spelling, and an address that is put together from a spelling is taken apart into its
parts, provided that its authority is one and the address is not too long.

- `Spelling`: the parts of an address as they are written, and `Spelling.text`.
- `Spelling.Legible`: each part ends where the next one begins.
- `parse_front`, `acceptable_of_parse`: when a spelled address can be read, and as what.
- `exists_spelling`: every absolute address is spelled.
-/

namespace Gatehouse.Uri

/-- The parts of an absolute address as they are written. The port comes with its colon, and the
path with its slashes. -/
structure Spelling where
  scheme : List Char
  site : List Char
  port : List Char
  path : List Char
  query : Option (List Char)
  fragment : Option (List Char)
deriving DecidableEq, Repr

/-- A part that is set apart by a mark, if it is there. -/
def marked (mark : Char) : Option (List Char) → List Char
  | none => []
  | some part => mark :: part

namespace Spelling

/-- What follows the authority, without the fragment. -/
def target (a : Spelling) : List Char :=
  a.path ++ marked '?' a.query

/-- The address without the fragment. -/
def front (a : Spelling) : List Char :=
  a.scheme ++ "://".toList ++ ((a.site ++ a.port) ++ a.target)

/-- The address. -/
def text (a : Spelling) : List Char :=
  a.front ++ marked '#' a.fragment

/-- Each part consists of the characters that it may contain, so that it is read up to the next
one. The colon of the port is the only one in the last stretch of the authority. -/
structure Legible (a : Spelling) : Prop where
  scheme : IsScheme a.scheme
  short : a.scheme.length ≤ 64
  unended : IsUnended (a.site ++ a.port)
  named : a.site ++ a.port ≠ []
  bare : ':' ∉ lastStretch a.site
  port : IsPort a.port
  path : a.path = [] ∨ ∃ rest, a.path = '/' :: rest
  pathChars : a.path.all isPathChar = true
  queryChars : (a.query.getD []).all isQueryChar = true

/-- Whether the rules for authorities and for the length of an address are kept. -/
def Acceptable (a : Spelling) : Prop :=
  isAuthority (a.site ++ a.port) = true ∧ (Utf8.encode a.front).length ≤ maxSize

end Spelling

/-! ## Schemes -/

/-- What is no letter stays as it is. -/
theorem eq_of_map_toLower_eq {s t : List Char} (h : s.map Char.toLower = t)
    (ht : t.any Char.isLower = false) : s = t := by
  subst h
  conv_lhs => rw [← List.map_id s]
  refine List.map_congr_left fun c hc => ?_
  exact eq_of_toLower_eq rfl
    (Bool.eq_false_iff.2 (List.any_eq_false.1 ht _ (List.mem_map_of_mem hc)))

/-- An address has one scheme in front of its colon and slashes. -/
theorem append_marks_inj {scheme scheme' rest rest' : List Char} (h : ':' ∉ scheme)
    (h' : ':' ∉ scheme')
    (heq : scheme ++ "://".toList ++ rest = scheme' ++ "://".toList ++ rest') :
    scheme = scheme' ∧ rest = rest' := by
  rw [List.append_assoc, List.append_assoc] at heq
  change scheme ++ ':' :: ("//".toList ++ rest) = scheme' ++ ':' :: ("//".toList ++ rest') at heq
  obtain ⟨hscheme, hcut⟩ := (Text.append_sep_inj h h').1 heq
  exact ⟨hscheme, List.append_cancel_left hcut⟩

/-- Every scheme can be written in front of an authority. -/
theorem exists_writes {s : List Char} (hs : IsScheme s) (hlen : s.length ≤ 64) :
    ∃ scheme, WritesScheme (s ++ "://".toList) scheme ∧
      scheme.map Char.toLower = s.map Char.toLower := by
  by_cases hhttp : s.map Char.toLower = "http".toList
  · exact ⟨_, .http (by rw [List.map_append, hhttp]; rfl), by rw [hhttp]; rfl⟩
  · by_cases hhttps : s.map Char.toLower = "https".toList
    · exact ⟨_, .https (by rw [List.map_append, hhttps]; rfl), by rw [hhttps]; rfl⟩
    · exact ⟨s, .other hs hlen hhttp hhttps, rfl⟩

/-- A common scheme and its marks, in any letter case. -/
theorem exists_common {written start : List Char} (hstart : IsScheme start)
    (hlower : start.map Char.toLower = start) (hlen : start.length ≤ 64)
    (h : written.map Char.toLower = start ++ "://".toList) :
    ∃ s, written = s ++ "://".toList ∧ IsScheme s ∧ s.length ≤ 64 ∧
      s.map Char.toLower = start.map Char.toLower := by
  obtain ⟨s, marks, rfl, hs, hmarks⟩ := List.map_eq_append_iff.1 h
  refine ⟨s, by rw [eq_of_map_toLower_eq hmarks (by decide)], ?_, ?_, hs.trans hlower.symm⟩
  · exact Text.forall_mem_of_map_toLower (Text.apply_toLower isSchemeChar (by decide))
      (hlower.trans hs.symm) hstart
  · rw [← hs, List.length_map] at hlen
    exact hlen

/-- What stands in front of an authority is a scheme with its marks. -/
theorem WritesScheme.exists_scheme {written scheme : List Char} (h : WritesScheme written scheme) :
    ∃ s, written = s ++ "://".toList ∧ IsScheme s ∧ s.length ≤ 64 ∧
      s.map Char.toLower = scheme.map Char.toLower := by
  cases h with
  | http h => exact exists_common isScheme_http rfl (by decide) h
  | https h => exact exists_common isScheme_https rfl (by decide) h
  | other hs hlen => exact ⟨scheme, rfl, hs, hlen, rfl⟩

/-! ## Targets -/

theorem notMem_of_all {p : Char → Bool} {s : List Char} (h : s.all p = true) {c : Char}
    (hc : p c = false) : c ∉ s := by
  intro hmem
  rw [List.all_eq_true.1 h c hmem] at hc
  cases hc

namespace Spelling.Legible

variable {a : Spelling}

theorem mark_notMem_target (ha : a.Legible) : '#' ∉ a.target := by
  intro hmem
  rcases List.mem_append.1 hmem with hpath | hquery
  · exact notMem_of_all ha.pathChars (by decide) hpath
  · have hchars := ha.queryChars
    cases hq : a.query with
    | none => simp [hq, marked] at hquery
    | some q =>
      rw [hq] at hquery hchars
      rcases List.mem_cons.1 hquery with heq | hmem
      · exact absurd heq (by decide)
      · exact notMem_of_all hchars (by decide) hmem

theorem mark_notMem_front (ha : a.Legible) : '#' ∉ a.front := by
  intro hmem
  rcases List.mem_append.1 hmem with hscheme | hrest
  · rcases List.mem_append.1 hscheme with hs | hmarks
    · exact absurd (ha.scheme _ hs) (by decide)
    · exact absurd hmarks (by decide)
  · rcases List.mem_append.1 hrest with hauthority | htarget
    · exact ha.unended.notMem (by decide) hauthority
    · exact ha.mark_notMem_target htarget

/-- The fragment is cut off. -/
theorem withoutFragment_text (ha : a.Legible) : withoutFragment a.text = a.front := by
  rw [text, withoutFragment_append_of_notMem ha.mark_notMem_front]
  cases a.fragment with
  | none => exact List.append_nil _
  | some fragment => exact List.append_nil _

theorem ends (ha : a.Legible) (c : Char) (rest : List Char) (h : a.target = c :: rest) :
    endsAuthority c = true := by
  rcases ha.path with hpath | ⟨_, hpath⟩
  · rw [target, hpath] at h
    cases hq : a.query with
    | none =>
      rw [hq] at h
      cases h
    | some q =>
      rw [hq] at h
      cases h
      rfl
  · rw [target, hpath] at h
    cases h
    rfl

theorem splitTarget_target (ha : a.Legible) : splitTarget a.target = some (a.path, a.query) := by
  have hmark := ha.mark_notMem_target
  have hplain : '?' ∉ a.path := notMem_of_all ha.pathChars (by decide)
  rw [splitTarget_eq_some_iff, withoutFragment_of_notMem hmark]
  refine ⟨⟨?_, ?_⟩, ha.pathChars, ha.queryChars⟩
  · rw [target, withoutQuery_append_of_notMem hplain]
    cases a.query with
    | none => exact (List.append_nil _).symm
    | some q => exact (List.append_nil _).symm
  · rw [target] at hmark ⊢
    cases hq : a.query with
    | none =>
      rw [hq] at hmark
      rw [targetQuery, withoutFragment_of_notMem hmark, marked, List.append_nil,
        List.dropWhile_eq_nil_iff.2 (decide_ne_of_notMem hplain)]
    | some q =>
      rw [hq] at hmark
      exact (targetQuery_append hplain hmark).symm

/-! ## Addresses -/

/-- An acceptable address is read part by part. -/
theorem parse_front (ha : a.Legible) (hacceptable : a.Acceptable) :
    ∃ scheme, scheme.map Char.toLower = a.scheme.map Char.toLower ∧
      parse (String.ofList a.front) = some ⟨some (String.ofList scheme),
        some (String.ofList (a.site ++ a.port)),
        if a.path.isEmpty then "/" else String.ofList a.path, a.query.map String.ofList⟩ := by
  obtain ⟨scheme, hwrites, hlower⟩ := exists_writes ha.scheme ha.short
  refine ⟨scheme, hlower, (parse_eq_some_iff (by nofun)).2 ⟨_, scheme, _, a.target, a.path, a.query,
    ?_, rfl, rfl⟩⟩
  exact
    { small := hacceptable.2, writes := hwrites, legal := hacceptable.1, unended := ha.unended
      named := ha.named, ends := ha.ends, split := ha.splitTarget_target }

/-- An address that is read is acceptable. -/
theorem acceptable_of_parse (ha : a.Legible) {u : Uri} (h : parse (String.ofList a.front) = some u)
    (hscheme : u.scheme ≠ none) : a.Acceptable := by
  obtain ⟨written, scheme, authority, rest, path, query, habsolute, hfront, -⟩ :=
    (parse_eq_some_iff hscheme).1 h
  obtain ⟨s, rfl, hs, -⟩ := habsolute.writes.exists_scheme
  obtain ⟨-, hrest⟩ := append_marks_inj (fun hmem => ha.scheme.ne_colon hmem rfl)
    (fun hmem => hs.ne_colon hmem rfl) hfront
  have hsplit : splitAuthority (a.site ++ a.port ++ a.target) = some (authority, rest) := by
    rw [hrest]
    exact splitAuthority_of_legal habsolute.legal habsolute.unended habsolute.ends
  obtain ⟨hauthority, -⟩ := splitAuthority_append ha.unended ha.ends hsplit
  exact ⟨hauthority ▸ habsolute.legal, hfront ▸ habsolute.small⟩

end Spelling.Legible

/-! ## Addresses that are read are spelled -/

/-- What follows the first of a mark. -/
def partAfter (mark : Char) (s : List Char) : Option (List Char) :=
  match s.dropWhile (· ≠ mark) with
  | [] => none
  | _ :: part => some part

theorem takeWhile_append_marked (mark : Char) (s : List Char) :
    s.takeWhile (· ≠ mark) ++ marked mark (partAfter mark s) = s := by
  conv_rhs => rw [← List.takeWhile_append_dropWhile (p := (· ≠ mark)) (l := s)]
  congr 1
  have hhead := List.head?_dropWhile_not (· ≠ mark) s
  rw [partAfter]
  cases hdrop : s.dropWhile (· ≠ mark) with
  | nil => rfl
  | cons c part =>
    rw [hdrop] at hhead
    have hc : c = mark := by simpa using hhead
    rw [hc]
    rfl

/-- A target is its path and its query. -/
theorem eq_of_splitTarget {target path : List Char} {query : Option (List Char)}
    (hmark : '#' ∉ target) (h : splitTarget target = some (path, query)) :
    target = path ++ marked '?' query := by
  obtain ⟨⟨hpath, hquery⟩, -⟩ := splitTarget_eq_some_iff.1 h
  rw [withoutFragment_of_notMem hmark] at hpath
  have hpart : query = partAfter '?' target := by
    rw [hquery, targetQuery, withoutFragment_of_notMem hmark]
    rfl
  rw [hpath, hpart]
  exact (takeWhile_append_marked '?' target).symm

/-- A path is empty or begins with a slash, if it begins where an authority ends. -/
theorem path_cases {path : List Char} {query : Option (List Char)}
    (hends : ∀ c rest, path ++ marked '?' query = c :: rest → endsAuthority c = true)
    (hchars : path.all isPathChar = true) : path = [] ∨ ∃ rest, path = '/' :: rest := by
  cases path with
  | nil => exact .inl rfl
  | cons c rest =>
    have hc := hends c _ rfl
    have hpath := List.all_eq_true.1 hchars c List.mem_cons_self
    simp only [endsAuthority, Bool.or_eq_true, beq_iff_eq] at hc
    rcases hc with (rfl | rfl) | rfl
    · exact .inr ⟨rest, rfl⟩
    · exact absurd hpath (by decide)
    · exact absurd hpath (by decide)

/-- Every absolute address is spelled. -/
theorem exists_spelling {s : List Char} {u : Uri}
    (h : parse (String.ofList (withoutFragment s)) = some u) (hscheme : u.scheme ≠ none) :
    ∃ a : Spelling, a.Legible ∧ a.text = s := by
  obtain ⟨written, scheme, authority, target, path, query, habsolute, hfront, -⟩ :=
    (parse_eq_some_iff hscheme).1 h
  obtain ⟨name, rfl, hname, hlen, -⟩ := habsolute.writes.exists_scheme
  obtain ⟨site, port, rfl, hbare, hport⟩ := exists_site habsolute.legal
  have hmark : '#' ∉ target := fun hmem => by
    refine notMem_withoutFragment s ?_
    rw [hfront]
    exact List.mem_append_right _ (List.mem_append_right _ hmem)
  have htarget := eq_of_splitTarget hmark habsolute.split
  obtain ⟨-, hpath, hquery⟩ := splitTarget_eq_some_iff.1 habsolute.split
  subst htarget
  refine ⟨⟨name, site, port, path, query, partAfter '#' s⟩, ?_, ?_⟩
  · exact
      { scheme := hname, short := hlen, unended := habsolute.unended, named := habsolute.named
        bare := hbare, port := hport, path := path_cases habsolute.ends hpath
        pathChars := hpath, queryChars := hquery }
  · rw [Spelling.text]
    show (name ++ "://".toList ++ (site ++ port ++ (path ++ marked '?' query))) ++ _ = s
    rw [← hfront]
    exact takeWhile_append_marked '#' s

end Gatehouse.Uri
