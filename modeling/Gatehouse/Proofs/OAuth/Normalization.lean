import Gatehouse.Proofs.OAuth.Place

/-!
# One address for each place

Addresses that name the same place are normalized to the same text, and this text is an address of
the place itself, unless it is none at all.

- `Alike`: spellings that differ in letter case, in a port that is implied, in a slash for the path
  and in the fragment only. They name the same place, and are legible together.
- `normalizeUrl_representative`: the normalized address stands for all addresses of its place.
- `normalizeUrl_not_representative`: two addresses for which it does not. The host of the one was
  cut off within brackets, and the normalized address of the other is too long.
-/

namespace Gatehouse.OAuth

open Uri

/-! ## Alike addresses -/

/-- A port that is not written, or that is the one of the scheme. -/
def IsImplied (scheme port : List Char) : Prop :=
  port = [] ∨ ∃ text n, port = ':' :: text ∧ readPort text = some n ∧ defaultPort scheme = some n

/-- A path that is not written, or a mere slash. -/
def IsRoot (path : List Char) : Prop :=
  path = [] ∨ path = ['/']

/-- Spellings that differ in the letter case of scheme and site, in a port that is implied, in a
slash for the path, and in the fragment only. -/
structure Alike (a b : Spelling) : Prop where
  scheme : a.scheme.map Char.toLower = b.scheme.map Char.toLower
  site : a.site.map Char.toLower = b.site.map Char.toLower
  port : a.port = b.port ∨
    IsImplied (a.scheme.map Char.toLower) a.port ∧ IsImplied (a.scheme.map Char.toLower) b.port
  path : a.path = b.path ∨ IsRoot a.path ∧ IsRoot b.path
  query : a.query = b.query

theorem IsRoot.path_eq {path : List Char} (h : IsRoot path) :
    (if path.isEmpty then ['/'] else path) = ['/'] := by
  rcases h with rfl | rfl
  · rfl
  · rfl

theorem IsImplied.isPort {scheme port : List Char} (h : IsImplied scheme port) : IsPort port := by
  rcases h with rfl | ⟨text, n, rfl, hread, -⟩
  · exact .inl rfl
  · exact .inr ⟨text, rfl, isPlain_of_readPort hread⟩

theorem IsImplied.effectivePort_eq {scheme port : List Char} (h : IsImplied scheme port) :
    effectivePort scheme (portNumber port) = defaultPort scheme := by
  rcases h with rfl | ⟨text, n, rfl, hread, hdefault⟩
  · rfl
  · rw [portNumber, hread, hdefault]
    rfl

/-- There is no host in front of an at sign. -/
theorem getLast?_ne_at {site : List Char} (h : Uri.host site ≠ []) : site.getLast? ≠ some '@' := by
  intro hlast
  obtain ⟨front, rfl⟩ := List.getLast?_eq_some_iff.1 hlast
  refine h ?_
  have hafter : afterLast '@' (front ++ ['@']) = [] := afterLast_append_cons front List.not_mem_nil
  rw [host_of_name (by simp [hafter]), hafter]
  rfl

namespace Alike

variable {a b : Spelling}

theorem isPort (h : Alike a b) (ha : a.Legible) : IsPort b.port := by
  rcases h.port with heq | ⟨-, himplied⟩
  · exact heq ▸ ha.port
  · exact himplied.isPort

theorem bare (h : Alike a b) (ha : a.Legible) : ':' ∉ lastStretch b.site := by
  intro hmem
  have hlower := List.mem_map_of_mem (f := Char.toLower) hmem
  rw [← lastStretch_map_toLower, ← h.site, lastStretch_map_toLower] at hlower
  exact notMem_map_toLower (by decide) ha.bare hlower

theorem unended (h : Alike a b) (ha : a.Legible) : IsUnended (b.site ++ b.port) := by
  have hsite : IsUnended b.site := by
    have hall := Text.forall_mem_of_map_toLower (p := fun c => !endsAuthority c)
      (fun c => by rw [Text.apply_toLower endsAuthority (by decide)]) h.site
    simp only [Bool.not_eq_true'] at hall
    exact hall fun c hc => ha.unended c (List.mem_append_left _ hc)
  exact fun c hc => (List.mem_append.1 hc).elim (hsite c) ((h.isPort ha).unended c)

theorem path_legible (h : Alike a b) (ha : a.Legible) :
    (b.path = [] ∨ ∃ rest, b.path = '/' :: rest) ∧ b.path.all isPathChar = true := by
  rcases h.path with heq | ⟨-, hroot | hroot⟩
  · exact heq ▸ ⟨ha.path, ha.pathChars⟩
  · rw [hroot]
    exact ⟨.inl rfl, rfl⟩
  · rw [hroot]
    exact ⟨.inr ⟨[], rfl⟩, by decide⟩

theorem legible (h : Alike a b) (ha : a.Legible) (hhost : Uri.host a.site ≠ []) : b.Legible where
  scheme := Text.forall_mem_of_map_toLower (Text.apply_toLower isSchemeChar (by decide)) h.scheme
    ha.scheme
  short := by
    have hlength := congrArg List.length h.scheme
    rw [List.length_map, List.length_map] at hlength
    exact hlength ▸ ha.short
  unended := h.unended ha
  named := by
    intro hnil
    have hsite := h.site
    rw [(List.append_eq_nil_iff.1 hnil).1, List.map_nil, List.map_eq_nil_iff] at hsite
    rw [hsite] at hhost
    exact hhost rfl
  bare := h.bare ha
  port := h.isPort ha
  path := (h.path_legible ha).1
  pathChars := (h.path_legible ha).2
  queryChars := h.query ▸ ha.queryChars

/-- Alike addresses name the same place. -/
theorem placeOf_eq (h : Alike a b) : placeOf a = placeOf b := by
  refine Place.ext h.scheme ?_ ?_ ?_
  · show (Uri.host a.site).map Char.toLower = (Uri.host b.site).map Char.toLower
    rw [← host_map_toLower, h.site, host_map_toLower]
  · show effectivePort _ _ = effectivePort _ _
    rw [← h.scheme]
    rcases h.port with heq | ⟨hleft, hright⟩
    · rw [heq]
    · rw [hleft.effectivePort_eq, hright.effectivePort_eq]
  · show (if a.path.isEmpty then ['/'] else a.path) = if b.path.isEmpty then ['/'] else b.path
    rcases h.path with heq | ⟨hleft, hright⟩
    · rw [heq]
    · rw [hleft.path_eq, hright.path_eq]

theorem isAuthority_eq (h : Alike a b) (ha : a.Legible) (hhost : Uri.host a.site ≠ []) :
    isAuthority (b.site ++ b.port) = isAuthority (a.site ++ a.port) := by
  have hhost' : Uri.host b.site ≠ [] := by
    intro hnil
    have hlower := host_map_toLower b.site
    rw [← h.site, host_map_toLower, hnil] at hlower
    exact hhost (List.map_eq_nil_iff.1 hlower)
  rw [isAuthority_site_port ha.bare ha.port (getLast?_ne_at hhost),
    isAuthority_site_port (h.bare ha) (h.isPort ha) (getLast?_ne_at hhost'),
    ← isAuthority_map_toLower, ← h.site, isAuthority_map_toLower]

end Alike

/-! ## Representatives -/

/-- A spelling of an address. -/
structure Spells (a : Spelling) (url : String) : Prop where
  legible : a.Legible
  text_eq : a.text = url.toList

theorem Spells.ofList_text {a : Spelling} {url : String} (h : Spells a url) :
    String.ofList a.text = url := by
  rw [h.text_eq, String.ofList_toList]

/-- Every address that is normalized is spelled. -/
theorem exists_spells {url : String} {parts : String × List Param}
    (h : normalizeUrl url = .ok parts) : ∃ a, Spells a url := by
  unfold normalizeUrl at h
  split at h
  · next hparse =>
    obtain ⟨a, ha, htext⟩ := exists_spelling hparse (by nofun)
    exact ⟨a, ha, htext⟩
  · cases h

section Representative

variable {a b : Spelling} {url n : String} {ps : List Param}

/-- What an address is normalized to, and the place that it names. -/
theorem Spells.normalized (ha : Spells a url) (h : normalizeUrl url = .ok (n, ps)) :
    a.Acceptable ∧ n = String.ofList (placeOf a).text ∧ ps = queryParams a.query ∧
      place? url = some (placeOf a) := by
  rw [← ha.ofList_text] at h ⊢
  obtain ⟨hok, hn, hps⟩ := (normalizeUrl_text_iff ha.legible).1 h
  exact ⟨hok, hn, hps, place?_text ha.legible hok⟩

/-- The normalized address of a place with a host is normalized to itself, if it is an address. -/
theorem normalizeUrl_place_iff {p : Place} (hp : p.Proper) (hhost : p.host ≠ []) :
    normalizeUrl (String.ofList p.text) = .ok (String.ofList p.text, []) ↔
      isAuthority p.host = true ∧ (Utf8.encode p.text).length ≤ maxSize := by
  have hauthority : isAuthority (p.spelling.site ++ p.spelling.port) = isAuthority p.host :=
    hp.host.isAuthority_append (isPort_portSuffix p.scheme p.port)
  have hfront : p.spelling.front = p.text := by
    rw [← Place.text_spelling, Spelling.text, Place.spelling, marked, List.append_nil]
  have hiff : normalizeUrl (String.ofList p.spelling.text) = .ok (String.ofList p.text, []) ↔ _ :=
    normalizeUrl_text_iff (hp.legible hhost)
  rw [Place.text_spelling, hp.placeOf_spelling] at hiff
  rw [hiff, Spelling.Acceptable, hauthority, hfront]
  exact and_iff_left ⟨rfl, rfl⟩

/-- Alike addresses are normalized alike, unless one of them is too long. -/
theorem Alike.normalizeUrl_iff (h : Alike a b) (ha : Spells a url)
    (hurl : normalizeUrl url = .ok (n, ps)) (hhost : Uri.host a.site ≠ []) :
    normalizeUrl (String.ofList b.text) = .ok (n, ps) ↔
      (Utf8.encode b.front).length ≤ maxSize := by
  obtain ⟨hok, hn, hps, -⟩ := ha.normalized hurl
  rw [normalizeUrl_text_iff (h.legible ha.legible hhost), Spelling.Acceptable,
    h.isAuthority_eq ha.legible hhost, ← h.placeOf_eq, ← h.query]
  exact ⟨fun hb => hb.1.2, fun hsize => ⟨⟨hok.1, hsize⟩, hn, hps⟩⟩

/-- The host of an address is an authority by itself if and only if it is whole. -/
theorem Spells.isAuthority_host_iff (ha : Spells a url) (hok : a.Acceptable) :
    isAuthority (placeOf a).host = true ↔ IsWhole (placeOf a).host := by
  show isAuthority ((Uri.host a.site).map Char.toLower) = true ↔
    IsWhole ((Uri.host a.site).map Char.toLower)
  rw [isAuthority_map_toLower, isWhole_map_toLower, ← host_site_port hok.1 ha.legible.port]
  exact Uri.isAuthority_host_iff hok.1

/-- The host of an address is whole if it is in brackets, or if there are none. -/
theorem Spells.isWhole_host (ha : Spells a url) (hok : a.Acceptable)
    (h : '[' ∉ a.site ∨ (placeOf a).host.head? = some '[') : IsWhole (placeOf a).host := by
  have hport := ha.legible.port
  have hhost := host_site_port hok.1 hport
  show IsWhole ((Uri.host a.site).map Char.toLower)
  rw [isWhole_map_toLower, ← hhost]
  refine Uri.isWhole_host hok.1 (h.imp (fun hnone hmem => ?_) fun hhead => ?_)
  · rcases List.mem_append.1 hmem with hsite | hmem
    · exact hnone hsite
    · exact hport.ne_ruled hmem (by decide) (by decide) rfl
  · rw [hhost]
    change ((Uri.host a.site).map Char.toLower).head? = some '[' at hhead
    rw [List.head?_map, Option.map_eq_some_iff] at hhead
    obtain ⟨c, hc, hlower⟩ := hhead
    rw [hc, eq_of_toLower_eq hlower rfl]

/-- The normalized address stands for all addresses of its place: it is normalized to itself, an
address that is alike is normalized to it, and an address of another place is not. Two things can
stand against the first: a host that is not whole, so that it has one bracket of a pair or a percent
sign without brackets, and the bound on the length of addresses. The second depends on that bound
only. Hosts in brackets are whole, and so are all hosts of addresses without brackets. -/
theorem normalizeUrl_representative (h : normalizeUrl url = .ok (n, ps)) :
    ∃ place, place? url = some place ∧ n.toList = place.text ∧
      (place.host ≠ [] →
        (normalizeUrl n = .ok (n, []) ↔
          IsWhole place.host ∧ (Utf8.encode n.toList).length ≤ maxSize) ∧
        (isAuthority place.host = true ↔ IsWhole place.host) ∧
        (∃ a, Spells a url) ∧
        (∀ a, Spells a url → '[' ∉ a.site ∨ place.host.head? = some '[' → IsWhole place.host) ∧
        ∀ a b, Spells a url → Alike a b →
          (normalizeUrl (String.ofList b.text) = .ok (n, ps) ↔
            (Utf8.encode b.front).length ≤ maxSize)) ∧
      ∀ url' n' ps', normalizeUrl url' = .ok (n', ps') → (n' = n ↔ place? url' = some place) := by
  obtain ⟨a, ha⟩ := exists_spells h
  obtain ⟨hok, rfl, rfl, hplace⟩ := ha.normalized h
  have hproper := proper_placeOf ha.legible
  have hwhole := ha.isAuthority_host_iff hok
  refine ⟨placeOf a, hplace, String.toList_ofList, fun hhost => ⟨?_, hwhole, ⟨a, ha⟩, ?_, ?_⟩, ?_⟩
  · rw [String.toList_ofList, ← hwhole]
    exact normalizeUrl_place_iff hproper hhost
  · intro a' ha' hbrackets
    obtain ⟨hok', -, -, hplace'⟩ := ha'.normalized h
    rw [Option.some.inj (hplace.symm.trans hplace')] at hbrackets ⊢
    exact ha'.isWhole_host hok' hbrackets
  · intro a' b ha' halike
    obtain ⟨-, -, -, hplace'⟩ := ha'.normalized h
    refine halike.normalizeUrl_iff ha' h fun hnone => hhost ?_
    rw [Option.some.inj (hplace.symm.trans hplace'), placeOf, hnone, List.map_nil]
  · intro url' n' ps' h'
    obtain ⟨b, hb⟩ := exists_spells h'
    obtain ⟨-, rfl, -, hplace'⟩ := hb.normalized h'
    rw [hplace', Option.some.injEq, String.ofList_inj]
    exact ⟨(proper_placeOf hb.legible).text_inj hproper, fun heq => heq ▸ rfl⟩

end Representative

/-- An address with user information, capitals, a port with zeros and a fragment; its normalized
address; another one for the same place; and one for another place. -/
theorem normalizeUrl_representative_user :
    normalizeUrl "HTTP://u:p@Ex.COM:0080?a=1#x" = .ok ("http://ex.com/", [⟨"a", "1"⟩]) ∧
      normalizeUrl "http://ex.com/" = .ok ("http://ex.com/", []) ∧
      normalizeUrl "http://u:P@ex.com/?a=1" = .ok ("http://ex.com/", [⟨"a", "1"⟩]) ∧
      ∀ n ps, normalizeUrl "http://ex.com:443/" = .ok (n, ps) → n ≠ "http://ex.com/" := by
  have hurl : normalizeUrl "HTTP://u:p@Ex.COM:0080?a=1#x" =
      .ok ("http://ex.com/", [⟨"a", "1"⟩]) := by decide +kernel
  have hspells : Spells ⟨"HTTP".toList, "u:p@Ex.COM".toList, ":0080".toList, [], some "a=1".toList,
      some "x".toList⟩ "HTTP://u:p@Ex.COM:0080?a=1#x" :=
    { legible :=
        { scheme := List.all_eq_true.1 rfl, short := by decide
          unended := fun c hc => Bool.eq_false_iff.2 (List.any_eq_false.1 rfl c hc)
          named := by decide
          bare := by decide, port := .inr ⟨"0080".toList, rfl, List.all_eq_true.1 rfl⟩
          path := .inl rfl, pathChars := rfl, queryChars := by decide }
      text_eq := by decide }
  have halike : Alike ⟨"HTTP".toList, "u:p@Ex.COM".toList, ":0080".toList, [], some "a=1".toList,
      some "x".toList⟩ ⟨"http".toList, "u:P@ex.com".toList, [], ['/'], some "a=1".toList, none⟩ :=
    { scheme := by decide, site := by decide
      port := .inr ⟨.inr ⟨"0080".toList, 80, rfl, by decide, by decide⟩, .inl rfl⟩
      path := .inr ⟨.inl rfl, .inr rfl⟩, query := rfl }
  obtain ⟨place, hplace, -, hsame, hother⟩ := normalizeUrl_representative hurl
  have hplace' : place? "HTTP://u:p@Ex.COM:0080?a=1#x" =
      some ⟨"http".toList, "ex.com".toList, some 80, ['/']⟩ := by decide +kernel
  rw [hplace', Option.some.injEq] at hplace
  subst hplace
  obtain ⟨hself, -, -, hwhole, hvariant⟩ := hsame (by decide)
  refine ⟨hurl, hself.2 ⟨hwhole _ hspells (.inl (by decide)), by decide⟩,
    (hvariant _ _ hspells halike).2 (by decide), fun n ps hn heq => ?_⟩
  exact absurd ((hother _ _ _ hn).1 heq) (by decide +kernel)

/-! ## Addresses without a representative -/

theorem normalizeUrl_eq_error {url : String} (h : ∀ parts, normalizeUrl url ≠ .ok parts) :
    normalizeUrl url = .error (.invalidRequestUrl url) := by
  unfold normalizeUrl at h ⊢
  split
  · next hparse => exact absurd (by rw [hparse]) (h _)
  · rfl

/-- An address with a host of so many letters and nothing behind it. -/
def lettered (n : Nat) (path : List Char) : Spelling where
  scheme := "http".toList
  site := List.replicate n 'h'
  port := []
  path := path
  query := none
  fragment := none

theorem legible_lettered {n : Nat} (hn : n ≠ 0) {path : List Char} (hpath : IsRoot path) :
    (lettered n path).Legible where
  scheme := isScheme_http
  short := show 4 ≤ 64 by decide
  unended := by
    intro c hc
    rw [lettered, List.append_nil] at hc
    rw [List.eq_of_mem_replicate hc]
    decide
  named := by simp [lettered, hn]
  bare := fun hmem => absurd (List.eq_of_mem_replicate (lastStretch_subset _ hmem)) (by decide)
  port := .inl rfl
  path := hpath.imp_right fun h => ⟨[], h⟩
  pathChars := by
    rcases hpath with rfl | rfl
    · rfl
    · rfl
  queryChars := rfl

theorem size_lettered (n : Nat) (path : List Char) :
    (Utf8.encode (lettered n path).front).length = 7 + n + (Utf8.encode path).length := by
  have hletters : (Utf8.encode (List.replicate n 'h')).length = n := by
    rw [Utf8.encode, List.flatMap_replicate]
    show (List.replicate n [0x68]).flatten.length = n
    rw [List.flatten_replicate_singleton, List.length_replicate]
  have hfront : (lettered n path).front = "http://".toList ++ (List.replicate n 'h' ++ path) := by
    simp [lettered, Spelling.front, Spelling.target, marked]
  rw [hfront, Utf8.encode_append, Utf8.encode_append, List.length_append, List.length_append,
    hletters, ← Nat.add_assoc]
  rfl

theorem text_placeOf_lettered (n : Nat) {path : List Char} (hpath : IsRoot path) :
    (placeOf (lettered n path)).text = (lettered n ['/']).text := by
  have hmem : ∀ c ∈ List.replicate n 'h', c = 'h' := fun c hc => List.eq_of_mem_replicate hc
  have hhost : IsHost (List.replicate n 'h') :=
    .name (fun h => absurd (hmem _ h) (by decide)) (fun h => absurd (hmem _ h) (by decide))
      fun h => absurd (hmem _ (List.mem_of_head? h)) (by decide)
  have hplace : placeOf (lettered n path) =
      ⟨"http".toList, List.replicate n 'h', some 80, ['/']⟩ := by
    refine Place.ext rfl ?_ rfl hpath.path_eq
    show (Uri.host (List.replicate n 'h')).map Char.toLower = _
    rw [hhost.host_eq, List.map_replicate]
    rfl
  have hsuffix : portSuffix "http".toList (some 80) = [] := by decide
  rw [hplace]
  simp only [Place.text, hsuffix, lettered, Spelling.text, Spelling.front,
    Spelling.target, marked, List.append_nil, List.append_assoc]

theorem acceptable_lettered_iff {n : Nat} {path : List Char} :
    (lettered n path).Acceptable ↔ 7 + n + (Utf8.encode path).length ≤ maxSize := by
  have hplain : ∀ c ∈ (lettered n path).site ++ (lettered n path).port,
      isPlainAuthorityChar c = true := by
    intro c hc
    rw [lettered, List.append_nil] at hc
    rw [List.eq_of_mem_replicate hc]
    decide
  rw [Spelling.Acceptable, size_lettered, and_iff_right (isAuthority_of_plain hplain)]

/-- Not every normalized address is an address again: the host of the first one is cut off at a
colon within brackets. The second one has the greatest length, and its normalized address, which
is the same address with a slash, has one byte more. -/
theorem normalizeUrl_not_representative :
    normalizeUrl "http://x[::1]/" = .ok ("http://x[/", []) ∧
      (place? "http://x[::1]/").map Place.host = some "x[".toList ∧
      normalizeUrl "http://x[/" = .error (.invalidRequestUrl "http://x[/") ∧
      normalizeUrl (String.ofList (lettered 65527 []).text) =
        .ok (String.ofList (lettered 65527 ['/']).text, []) ∧
      normalizeUrl (String.ofList (lettered 65527 ['/']).text) =
        .error (.invalidRequestUrl (String.ofList (lettered 65527 ['/']).text)) := by
  have hshort : (lettered 65527 []).Legible := legible_lettered (by decide) (.inl rfl)
  have hlong : (lettered 65527 ['/']).Legible := legible_lettered (by decide) (.inr rfl)
  refine ⟨by decide +kernel, by decide +kernel, by decide +kernel, ?_, ?_⟩
  · rw [← text_placeOf_lettered 65527 (.inl rfl)]
    exact normalizeUrl_text hshort (acceptable_lettered_iff.2 (by decide))
  · refine normalizeUrl_eq_error fun parts hparts => ?_
    exact absurd (acceptable_lettered_iff.1 (acceptable_of_normalizeUrl hlong hparts)) (by decide)

end Gatehouse.OAuth
