import Gatehouse.Proofs.OAuth.Address
import Gatehouse.Proofs.Text.Numeral
import Gatehouse.Proofs.Uri.Spelling

/-!
# The place that an address names

A place is a scheme and a host in lower case, the port that is spoken to, and a path. Addresses
are normalized to the address of their place, which leaves out a port that the scheme implies.

- `Place` and `place?`: the place that an address names. `Place.text` is its normalized address.
- `normalizeUrl_text_iff`: how an address is normalized, told by its spelling.
- `Place.Proper`: what the place of an address looks like.
- `Place.Proper.placeOf_spelling`: the normalized address of a place names this place.
- `Place.Proper.text_inj`: different places have different normalized addresses.
-/

namespace Gatehouse.OAuth

open Uri

/-! ## Places -/

/-- The port that is spoken to: the one that is written, or else the one that the scheme implies. -/
def effectivePort (scheme : List Char) (port : Option Nat) : Option Nat :=
  port.or (defaultPort scheme)

/-- What an address names, apart from its user information and its parameters. -/
@[ext]
structure Place where
  scheme : List Char
  host : List Char
  port : Option Nat
  path : List Char
deriving DecidableEq, Repr

/-- The normalized address of a place. -/
def Place.text (p : Place) : List Char :=
  p.scheme ++ "://".toList ++ (p.host ++ portSuffix p.scheme p.port ++ p.path)

/-- The place that an address names, if it is absolute. -/
def place? (url : String) : Option Place :=
  match Uri.parse (String.ofList (withoutFragment url.toList)) with
  | some ⟨some scheme, some authority, path, _⟩ =>
    let scheme := scheme.toList.map Char.toLower
    some
      { scheme := scheme
        host := (Uri.host authority.toList).map Char.toLower
        port := effectivePort scheme (Uri.port authority.toList)
        path := path.toList }
  | _ => none

/-! ## Ports -/

/-- The number in a port with its colon. -/
def portNumber : List Char → Option Nat
  | [] => none
  | _ :: text => readPort text

theorem port_site_portNumber {site port : List Char} (hsite : ':' ∉ lastStretch site)
    (hport : IsPort port) : Uri.port (site ++ port) = portNumber port := by
  rcases hport with rfl | ⟨text, rfl, hplain⟩
  · rw [List.append_nil]
    exact port_site hsite
  · exact port_site_port site fun hmem =>
      AuthorityState.notMem_ruled (hplain ':' hmem) (by decide)

theorem isPort_portSuffix (scheme : List Char) (port : Option Nat) :
    IsPort (portSuffix scheme port) := by
  unfold portSuffix
  split
  · exact .inl rfl
  · split
    · exact .inl rfl
    · exact .inr ⟨_, rfl, fun c hc => isPlain_of_isDigit (Numeral.mem_ofNat hc)⟩

/-- A port that is implied is not written. -/
theorem portSuffix_effectivePort (scheme : List Char) (port : Option Nat) :
    portSuffix scheme (effectivePort scheme port) = portSuffix scheme port := by
  cases port with
  | some p => rfl
  | none =>
    rw [effectivePort, Option.none_or]
    cases hdefault : defaultPort scheme with
    | none => rfl
    | some d => simp [portSuffix, hdefault]

theorem readPort_ofNat {n : Nat} (h : n ≤ 65535) : readPort (Numeral.ofNat n) = some n := by
  have hunsigned : Numeral.unsigned? (Numeral.ofNat n) = some n := by
    unfold Numeral.unsigned?
    split
    · next rest heq =>
      exact absurd (Numeral.mem_ofNat (heq ▸ List.mem_cons_self : '+' ∈ Numeral.ofNat n)) (by decide)
    · dsimp only
      rw [Numeral.digits?_ofNat, Option.filter_some, if_pos]
      exact decide_eq_true (Nat.le_trans h (by decide))
  rw [readPort, hunsigned, Option.filter_some, if_pos (decide_eq_true h)]

/-- A port is found again in what is written for it. -/
theorem effectivePort_portSuffix {scheme : List Char} {port : Option Nat}
    (hrange : ∀ n, port = some n → n ≤ 65535) (himplied : port = none → defaultPort scheme = none) :
    effectivePort scheme (portNumber (portSuffix scheme port)) = port := by
  cases port with
  | none => exact himplied rfl
  | some n =>
    rw [portSuffix]
    split
    · next hdefault => exact hdefault.symm
    · rw [portNumber, readPort_ofNat (hrange n rfl)]
      rfl

/-! ## Spelled addresses -/

/-- The place that a spelled address names. -/
def placeOf (a : Spelling) : Place where
  scheme := a.scheme.map Char.toLower
  host := (Uri.host a.site).map Char.toLower
  port := effectivePort (a.scheme.map Char.toLower) (portNumber a.port)
  path := if a.path.isEmpty then ['/'] else a.path

section Spelled

variable {a : Spelling}

/-- The path that is read is never empty. -/
theorem toList_path (path : List Char) :
    (if path.isEmpty then "/" else String.ofList path).toList =
        (if path.isEmpty then ['/'] else path) ∧
      (if path.isEmpty then "/" else String.ofList path).isEmpty = false := by
  cases path with
  | nil => exact ⟨rfl, rfl⟩
  | cons c path =>
    refine ⟨String.toList_ofList, ?_⟩
    rw [String.isEmpty_eq_false_iff, Ne, ← String.toList_inj]
    exact fun h => List.cons_ne_nil c path (String.toList_ofList.symm.trans h)

theorem place?_text (ha : a.Legible) (hok : a.Acceptable) :
    place? (String.ofList a.text) = some (placeOf a) := by
  obtain ⟨scheme, hlower, hparse⟩ := ha.parse_front hok
  unfold place?
  rw [String.toList_ofList, ha.withoutFragment_text, hparse]
  simp only [String.toList_ofList, hlower, host_site_port hok.1 ha.port,
    port_site_portNumber ha.bare ha.port, (toList_path a.path).1, placeOf]

theorem normalizeUrl_text (ha : a.Legible) (hok : a.Acceptable) :
    normalizeUrl (String.ofList a.text) =
      .ok (String.ofList (placeOf a).text, queryParams a.query) := by
  obtain ⟨scheme, hlower, hparse⟩ := ha.parse_front hok
  unfold normalizeUrl
  rw [String.toList_ofList, ha.withoutFragment_text, hparse]
  simp only [String.toList_ofList, hlower, host_site_port hok.1 ha.port,
    port_site_portNumber ha.bare ha.port, (toList_path a.path).1, (toList_path a.path).2,
    Bool.false_eq_true, if_false, placeOf, Place.text, portSuffix_effectivePort,
    List.append_assoc]
  cases a.query with
  | none => rfl
  | some q => simp [queryParams]

theorem acceptable_of_normalizeUrl (ha : a.Legible) {parts : String × List Param}
    (h : normalizeUrl (String.ofList a.text) = .ok parts) : a.Acceptable := by
  unfold normalizeUrl at h
  rw [String.toList_ofList, ha.withoutFragment_text] at h
  split at h
  · next hparse => exact ha.acceptable_of_parse hparse (by nofun)
  · cases h

/-- How an address is normalized, told by its spelling. -/
theorem normalizeUrl_text_iff (ha : a.Legible) {n : String} {ps : List Param} :
    normalizeUrl (String.ofList a.text) = .ok (n, ps) ↔
      a.Acceptable ∧ n = String.ofList (placeOf a).text ∧ ps = queryParams a.query := by
  constructor
  · intro h
    have hok := acceptable_of_normalizeUrl ha h
    rw [normalizeUrl_text ha hok] at h
    cases h
    exact ⟨hok, rfl, rfl⟩
  · rintro ⟨hok, rfl, rfl⟩
    exact normalizeUrl_text ha hok

end Spelled

/-! ## Places of addresses -/

/-- What the place of an address looks like. -/
structure Place.Proper (p : Place) : Prop where
  scheme : IsScheme p.scheme
  short : p.scheme.length ≤ 64
  lowerScheme : p.scheme.map Char.toLower = p.scheme
  host : IsHost p.host
  unended : IsUnended p.host
  lowerHost : p.host.map Char.toLower = p.host
  range : ∀ n, p.port = some n → n ≤ 65535
  implied : p.port = none → defaultPort p.scheme = none
  path : ∃ rest, p.path = '/' :: rest
  pathChars : p.path.all isPathChar = true

theorem readPort_le {s : List Char} {n : Nat} (h : readPort s = some n) : n ≤ 65535 := by
  rw [readPort, Option.filter_eq_some_iff] at h
  exact of_decide_eq_true h.2

theorem defaultPort_le {scheme : List Char} {n : Nat} (h : defaultPort scheme = some n) :
    n ≤ 65535 := by
  unfold defaultPort at h
  split at h
  · cases h
    decide
  · split at h
    · cases h
      decide
    · cases h

theorem unended_host {s : List Char} (h : IsUnended s) : IsUnended (Uri.host s) := by
  intro c hc
  rcases mem_host hc with hs | rfl
  · exact h c hs
  · decide

theorem isUnended_map_toLower {s : List Char} (h : IsUnended s) :
    IsUnended (s.map Char.toLower) := by
  intro c hc
  obtain ⟨d, hd, rfl⟩ := List.mem_map.1 hc
  rw [Text.apply_toLower endsAuthority (by decide)]
  exact h d hd

theorem proper_placeOf {a : Spelling} (ha : a.Legible) : (placeOf a).Proper where
  scheme := by
    intro c hc
    obtain ⟨d, hd, rfl⟩ := List.mem_map.1 hc
    rw [Text.apply_toLower isSchemeChar (by decide)]
    exact ha.scheme d hd
  short := (List.length_map ..).trans_le ha.short
  lowerScheme := Text.map_toLower_idem a.scheme
  host := by
    show IsHost ((Uri.host a.site).map Char.toLower)
    rw [← host_map_toLower]
    exact isHost_host _
  unended := isUnended_map_toLower (unended_host fun c hc =>
    ha.unended c (List.mem_append_left _ hc))
  lowerHost := Text.map_toLower_idem _
  range := by
    intro n hn
    rcases Option.or_eq_some_iff.1 hn with hport | ⟨-, hdefault⟩
    · rcases ha.port with hnil | ⟨text, htext, -⟩
      · rw [hnil] at hport
        cases hport
      · rw [htext] at hport
        exact readPort_le hport
    · exact defaultPort_le hdefault
  implied := fun hn => (Option.or_eq_none_iff.1 hn).2
  path := by
    rcases ha.path with hpath | ⟨rest, hpath⟩
    · exact ⟨[], by simp [placeOf, hpath]⟩
    · exact ⟨rest, by simp [placeOf, hpath]⟩
  pathChars := by
    rcases ha.path with hpath | ⟨rest, hpath⟩
    · simp only [placeOf, hpath]
      decide
    · have hchars := ha.pathChars
      simpa [placeOf, hpath] using hchars

/-! ## Normalized addresses are addresses -/

/-- The normalized address of a place as it is spelled. -/
def Place.spelling (p : Place) : Spelling where
  scheme := p.scheme
  site := p.host
  port := portSuffix p.scheme p.port
  path := p.path
  query := none
  fragment := none

theorem Place.text_spelling (p : Place) : p.spelling.text = p.text := by
  simp [Place.spelling, Spelling.text, Spelling.front, Spelling.target, marked, Place.text]

namespace Place.Proper

variable {p q : Place}

theorem legible (hp : p.Proper) (hhost : p.host ≠ []) : p.spelling.Legible where
  scheme := hp.scheme
  short := hp.short
  unended := fun c hc => (List.mem_append.1 hc).elim (hp.unended c)
    ((isPort_portSuffix p.scheme p.port).unended c)
  named := by simp [Place.spelling, hhost]
  bare := hp.host.colon_notMem_lastStretch
  port := isPort_portSuffix _ _
  path := .inr hp.path
  pathChars := hp.pathChars
  queryChars := rfl

theorem placeOf_spelling (hp : p.Proper) : placeOf p.spelling = p := by
  obtain ⟨rest, hpath⟩ := hp.path
  refine Place.ext hp.lowerScheme ?_ ?_ ?_
  · show (Uri.host p.host).map Char.toLower = p.host
    rw [hp.host.host_eq, hp.lowerHost]
  · show effectivePort (p.scheme.map Char.toLower) (portNumber (portSuffix p.scheme p.port)) = p.port
    rw [hp.lowerScheme, effectivePort_portSuffix hp.range hp.implied]
  · show (if p.path.isEmpty then ['/'] else p.path) = p.path
    exact if_neg (by simp [hpath])

theorem slash_notMem (hp : p.Proper) : '/' ∉ p.host ++ portSuffix p.scheme p.port := by
  intro hmem
  rcases List.mem_append.1 hmem with hhost | hport
  · exact hp.unended.notMem (by decide) hhost
  · exact (isPort_portSuffix p.scheme p.port).unended.notMem (by decide) hport

/-- Different places have different normalized addresses. -/
theorem text_inj (hp : p.Proper) (hq : q.Proper) (h : p.text = q.text) : p = q := by
  obtain ⟨hscheme, hrest⟩ := append_marks_inj (fun hmem => hp.scheme.ne_colon hmem rfl)
    (fun hmem => hq.scheme.ne_colon hmem rfl) h
  obtain ⟨path, hpath⟩ := hp.path
  obtain ⟨path', hpath'⟩ := hq.path
  rw [hpath, hpath'] at hrest
  obtain ⟨hauthority, hrest⟩ := (Text.append_sep_inj hp.slash_notMem hq.slash_notMem).1 hrest
  have hhost : p.host = q.host := by
    rw [← hp.host.host_append (isPort_portSuffix p.scheme p.port), hauthority,
      hq.host.host_append (isPort_portSuffix q.scheme q.port)]
  have hport : p.port = q.port := by
    rw [hhost] at hauthority
    rw [← effectivePort_portSuffix hp.range hp.implied, List.append_cancel_left hauthority,
      hscheme, effectivePort_portSuffix hq.range hq.implied]
  exact Place.ext hscheme hhost hport (by rw [hpath, hpath', hrest])

end Place.Proper

end Gatehouse.OAuth
