import Gatehouse.Proofs.Text.Denotation
import Gatehouse.Proofs.Uri.Authority

/-!
# Hosts

The host of an authority is what stands in brackets behind the last at sign, or else what stands
there in front of a colon. The port behind a site does not matter to it, and a host is found again
in front of a port. Not every host is an authority by itself: a colon may cut it off within brackets
that are opened behind its beginning, and brackets that are opened in user information may leave it
the closing one, or a percent sign that the reader forgets at the closing one only.

- `host_site_port`: the host of site and port.
- `host_map_toLower`: letter case.
- `IsHost`: what a host looks like, and `IsHost.host_append`, which finds it again.
- `IsWhole`, `isAuthority_host_iff`: hosts that are authorities by themselves. The reader takes up a
  host with brackets as if nothing stood in front of it (`run_initial_of_opening`).
- `isWhole_host`: it is so in brackets, and where there are none.
- `port_site`, `port_site_port`: the port of site and port.
-/

namespace Gatehouse.Uri

open AuthorityState

/-! ## What follows the last of a separator -/

theorem afterLast_append {sep : Char} (s : List Char) {t : List Char} (h : sep ∉ t) :
    afterLast sep (s ++ t) = afterLast sep s ++ t :=
  rtakeWhile_append_of_pos s (decide_ne_of_notMem h)

theorem afterLast_of_notMem {sep : Char} {s : List Char} (h : sep ∉ s) : afterLast sep s = s :=
  afterLast_append [] h

theorem afterLast_append_cons {sep : Char} (s : List Char) {t : List Char} (h : sep ∉ t) :
    afterLast sep (s ++ sep :: t) = t :=
  rtakeWhile_append_cons_of_neg s (by simp) (decide_ne_of_notMem h)

theorem notMem_afterLast (sep : Char) (s : List Char) : sep ∉ afterLast sep s := by
  intro hmem
  simpa using List.mem_rtakeWhile_imp (p := (· ≠ sep)) hmem

/-- What precedes what follows the last separator. -/
theorem exists_append_afterLast (sep : Char) (s : List Char) :
    ∃ front, s = front ++ afterLast sep s ∧ (front = [] ∨ front.getLast? = some sep) := by
  refine ⟨s.rdropWhile (· ≠ sep), List.rdropWhile_append_rtakeWhile.symm, ?_⟩
  by_cases hnil : s.rdropWhile (· ≠ sep) = []
  · exact .inl hnil
  · have hlast := List.rdropWhile_last_not _ _ hnil
    rw [decide_eq_true_iff, not_not] at hlast
    exact .inr (by rw [List.getLast?_eq_getLast_of_ne_nil hnil, hlast])

/-! ## Letter case -/

/-- What is no letter is found in any letter case. -/
theorem toLower_eq_iff {c sep : Char} (hsep : sep.isLower = false) (hfixed : sep.toLower = sep) :
    c.toLower = sep ↔ c = sep :=
  ⟨fun h => eq_of_toLower_eq h hsep, fun h => h ▸ hfixed⟩

theorem mem_map_toLower_iff {sep : Char} (hsep : sep.isLower = false)
    (hfixed : sep.toLower = sep) {s : List Char} : sep ∈ s.map Char.toLower ↔ sep ∈ s := by
  refine ⟨fun h => ?_, fun h => List.mem_map.2 ⟨sep, h, hfixed⟩⟩
  obtain ⟨c, hc, hlower⟩ := List.mem_map.1 h
  rwa [(toLower_eq_iff hsep hfixed).1 hlower] at hc

theorem afterLast_map_toLower {sep : Char} (hsep : sep.isLower = false)
    (hfixed : sep.toLower = sep) (s : List Char) :
    afterLast sep (s.map Char.toLower) = (afterLast sep s).map Char.toLower := by
  refine rtakeWhile_map (fun c => ?_) s
  rw [decide_eq_decide, Ne, Ne, toLower_eq_iff hsep hfixed]

theorem takeWhile_map_toLower {sep : Char} (hsep : sep.isLower = false)
    (hfixed : sep.toLower = sep) (s : List Char) :
    (s.map Char.toLower).takeWhile (· ≠ sep) = (s.takeWhile (· ≠ sep)).map Char.toLower := by
  rw [List.takeWhile_map]
  congr 2
  funext c
  rw [Function.comp_apply, decide_eq_decide, Ne, Ne, toLower_eq_iff hsep hfixed]

theorem lastStretch_map_toLower (s : List Char) :
    lastStretch (s.map Char.toLower) = (lastStretch s).map Char.toLower := by
  refine rtakeWhile_map (fun c => ?_) s
  rw [decide_eq_decide, Ne, Ne, toLower_eq_iff rfl rfl, toLower_eq_iff rfl rfl]

/-! ## Brackets and names -/

/-- What the brackets hold. -/
theorem host_of_bracket {s inner : List Char} (h : afterLast '@' s = '[' :: inner) :
    host s = '[' :: (inner.takeWhile (· ≠ ']') ++ [']']) := by
  simp only [host, h]
  rfl

/-- Without brackets, what stands in front of a colon. -/
theorem host_of_name {s : List Char} (h : (afterLast '@' s).head? ≠ some '[') :
    host s = (afterLast '@' s).takeWhile (· ≠ ':') := by
  unfold host
  dsimp only
  split
  · next heq => exact absurd (by rw [heq]; rfl) h
  · rfl

theorem host_cases (s : List Char) :
    (∃ inner, afterLast '@' s = '[' :: inner) ∨ (afterLast '@' s).head? ≠ some '[' := by
  rw [← List.head?_eq_some_iff]
  exact Decidable.em _

/-- What an authority opens behind its user information, it closes. -/
theorem closing_mem {s inner : List Char} (h : isAuthority s = true)
    (hs : afterLast '@' s = '[' :: inner) : ']' ∈ inner := by
  obtain ⟨front, hfront, -⟩ := exists_append_afterLast '@' s
  rw [hs] at hfront
  have hclosed : ']' ∈ s := (isLegal_of_isAuthority h).brackets.1 (hfront ▸ by simp)
  obtain ⟨st, hrun, -⟩ := isAuthority_iff.1 h
  rw [hfront] at hrun
  obtain ⟨before, hbefore, hrun⟩ := run_append_eq_some_iff.1 hrun
  -- no bracket is closed in front of the one that is opened here
  have hnone : ']' ∉ front := fun hmem =>
    opening_once hbefore hrun ((tells_of_run hbefore).order hmem).1 List.mem_cons_self
  rw [hfront, List.mem_append, or_iff_right hnone] at hclosed
  exact (List.mem_cons.1 hclosed).resolve_left (by decide)

/-- A port does not begin with a bracket, and does not make a text begin with one. -/
theorem head?_append_port {s port : List Char} (h : s.head? ≠ some '[') (hport : IsPort port) :
    (s ++ port).head? ≠ some '[' := by
  intro hhead
  rw [List.head?_append, Option.or_eq_some_iff] at hhead
  rcases hhead with hs | ⟨-, hp⟩
  · exact h hs
  · exact hport.ne_ruled (List.mem_of_head? hp) (by decide) (by decide) rfl

/-- The colon of a port ends a name. -/
theorem takeWhile_append_port (s : List Char) {port : List Char} (hport : IsPort port) :
    (s ++ port).takeWhile (· ≠ ':') = s.takeWhile (· ≠ ':') := by
  by_cases hcolon : ':' ∈ s
  · exact takeWhile_append_of_mem hcolon port
  · rw [List.takeWhile_append_of_pos (decide_ne_of_notMem hcolon),
      List.takeWhile_eq_self_iff.2 (decide_ne_of_notMem hcolon)]
    rcases hport with rfl | ⟨text, rfl, -⟩
    · exact List.append_nil s
    · exact List.append_nil s

/-- The port does not matter to the host. -/
theorem host_site_port {site port : List Char} (h : isAuthority (site ++ port) = true)
    (hport : IsPort port) : host (site ++ port) = host site := by
  have hafter : afterLast '@' (site ++ port) = afterLast '@' site ++ port :=
    afterLast_append site fun hmem => hport.ne_ruled hmem (by decide) (by decide) rfl
  rcases host_cases site with ⟨inner, hinner⟩ | hname
  · rw [hinner, List.cons_append] at hafter
    have hclosing : ']' ∈ inner := by
      refine (List.mem_append.1 (closing_mem h hafter)).resolve_right fun hmem => ?_
      exact hport.ne_ruled hmem (by decide) (by decide) rfl
    rw [host_of_bracket hafter, host_of_bracket hinner, takeWhile_append_of_mem hclosing]
  · have hnamePort : (afterLast '@' (site ++ port)).head? ≠ some '[' :=
      hafter ▸ head?_append_port hname hport
    rw [host_of_name hnamePort, host_of_name hname, hafter, takeWhile_append_port _ hport]

theorem host_map_toLower (s : List Char) :
    host (s.map Char.toLower) = (host s).map Char.toLower := by
  have hafter : afterLast '@' (s.map Char.toLower) = (afterLast '@' s).map Char.toLower :=
    afterLast_map_toLower rfl rfl s
  rcases host_cases s with ⟨inner, hinner⟩ | hname
  · rw [hinner] at hafter
    rw [host_of_bracket hafter, host_of_bracket hinner, takeWhile_map_toLower rfl rfl,
      List.map_cons, List.map_append]
    rfl
  · have hnameLower : (afterLast '@' (s.map Char.toLower)).head? ≠ some '[' := by
      rw [hafter, List.head?_map]
      intro hhead
      obtain ⟨c, hc, hlower⟩ := Option.map_eq_some_iff.1 hhead
      exact hname (hc.trans (by rw [eq_of_toLower_eq hlower rfl]))
    rw [host_of_name hnameLower, host_of_name hname, hafter, takeWhile_map_toLower rfl rfl]

/-! ## Hosts in front of ports -/

/-- What a host looks like: a text between brackets, or one without colons. -/
inductive IsHost : List Char → Prop where
  | bracketed {inner : List Char} (hclosing : ']' ∉ inner) (hat : '@' ∉ inner) :
    IsHost ('[' :: (inner ++ [']']))
  | name {s : List Char} (hcolon : ':' ∉ s) (hat : '@' ∉ s) (hopening : s.head? ≠ some '[') :
    IsHost s

/-- A name does not begin with a bracket. -/
theorem head?_takeWhile_ne {t : List Char} (h : t.head? ≠ some '[') (p : Char → Bool) :
    (t.takeWhile p).head? ≠ some '[' := by
  rw [List.head?_takeWhile]
  exact fun hhead => h (Option.filter_eq_some_iff.1 hhead).1

theorem isHost_host (s : List Char) : IsHost (host s) := by
  have hat := notMem_afterLast '@' s
  rcases host_cases s with ⟨inner, hinner⟩ | hname
  · rw [host_of_bracket hinner]
    rw [hinner] at hat
    refine .bracketed (fun hmem => by simpa using List.mem_takeWhile_imp hmem) fun hmem => ?_
    exact hat (List.mem_cons_of_mem _ (List.takeWhile_subset _ hmem))
  · rw [host_of_name hname]
    exact .name (fun hmem => by simpa using List.mem_takeWhile_imp hmem)
      (fun hmem => hat (List.takeWhile_subset _ hmem)) (head?_takeWhile_ne hname _)

namespace IsHost

variable {s port : List Char}

theorem at_notMem (h : IsHost s) : '@' ∉ s := by
  cases h with
  | bracketed _ hat => simp [hat]
  | name _ hat _ => exact hat

/-- No colon of a host is taken for that of a port. -/
theorem colon_notMem_lastStretch (h : IsHost s) : ':' ∉ lastStretch s := by
  cases h with
  | bracketed =>
    rw [← List.cons_append, lastStretch_concat, if_pos (.inr rfl)]
    exact List.not_mem_nil
  | name hcolon => exact fun hmem => hcolon (lastStretch_subset s hmem)

theorem colon_notMem (h : IsHost s) (hopening : '[' ∉ s) : ':' ∉ s := by
  cases h with
  | bracketed => exact absurd List.mem_cons_self hopening
  | name hcolon => exact hcolon

/-- A host is found again in front of a port. -/
theorem host_append (h : IsHost s) (hport : IsPort port) : host (s ++ port) = s := by
  have hafter : afterLast '@' (s ++ port) = s ++ port := by
    refine afterLast_of_notMem fun hmem => ?_
    rcases List.mem_append.1 hmem with hs | hp
    · exact h.at_notMem hs
    · exact hport.ne_ruled hp (by decide) (by decide) rfl
  cases h with
  | @bracketed inner hclosing _ =>
    rw [List.cons_append, List.append_assoc] at hafter
    rw [List.cons_append, List.append_assoc, host_of_bracket hafter,
      List.takeWhile_append_of_pos (decide_ne_of_notMem hclosing), List.singleton_append,
      List.takeWhile_cons_of_neg (by simp), List.append_nil]
  | name hcolon _ hopening =>
    have hname : (afterLast '@' (s ++ port)).head? ≠ some '[' := by
      rw [hafter]
      exact head?_append_port hopening hport
    rw [host_of_name hname, hafter, takeWhile_append_port s hport,
      List.takeWhile_eq_self_iff.2 (decide_ne_of_notMem hcolon)]

theorem host_eq (h : IsHost s) : host s = s := by
  have hhost := h.host_append (.inl rfl)
  rwa [List.append_nil] at hhost

theorem isAuthority_append (h : IsHost s) (hport : IsPort port) :
    isAuthority (s ++ port) = isAuthority s :=
  isAuthority_site_port h.colon_notMem_lastStretch hport fun hlast =>
    h.at_notMem (List.mem_of_getLast? hlast)

end IsHost

/-! ## Hosts that are authorities -/

/-- Plain characters are an authority. -/
theorem isAuthority_of_plain {s : List Char} (h : ∀ c ∈ s, isPlainAuthorityChar c = true) :
    isAuthority s = true :=
  isAuthority_iff.2 ⟨initial, run_plain h rfl, rfl⟩

/-- The host of an authority, and what stands around it: user information, if there is any, and a
text without at signs. -/
theorem exists_append_host {s : List Char} (h : isAuthority s = true) :
    ∃ front rest, s = front ++ (host s ++ rest) ∧ (front = [] ∨ front.getLast? = some '@') ∧
      '@' ∉ rest := by
  obtain ⟨front, hfront, hends⟩ := exists_append_afterLast '@' s
  have hhost : ∃ rest, afterLast '@' s = host s ++ rest := by
    rcases host_cases s with ⟨inner, hinner⟩ | hname
    · obtain ⟨between, rest, rfl, hclosing⟩ := List.eq_append_cons_of_mem (closing_mem h hinner)
      refine ⟨rest, ?_⟩
      rw [host_of_bracket hinner, hinner,
        List.takeWhile_append_of_pos (decide_ne_of_notMem hclosing),
        List.takeWhile_cons_of_neg (by simp), List.append_nil, List.cons_append, List.append_assoc]
      rfl
    · refine ⟨(afterLast '@' s).dropWhile (· ≠ ':'), ?_⟩
      rw [host_of_name hname, List.takeWhile_append_dropWhile]
  obtain ⟨rest, hrest⟩ := hhost
  refine ⟨front, rest, hrest ▸ hfront, hends, fun hmem => ?_⟩
  exact notMem_afterLast '@' s (hrest ▸ List.mem_append_right _ hmem)

/-- The next character decides whether a text ends in an at sign. -/
theorem AuthorityState.run_endsInAt (st : AuthorityState) (ends : Bool) (c : Char)
    (s : List Char) : run { st with endsInAt := ends } (c :: s) = run st (c :: s) := rfl

/-- Behind user information the reader has forgotten all but the brackets, so it takes up a text
that opens brackets as if nothing stood in front of it. -/
theorem AuthorityState.run_initial_of_opening {st st' : AuthorityState} {front s : List Char}
    (hfront : front = [] ∨ front.getLast? = some '@') (hopening : '[' ∈ s)
    (hrun : initial.run front = some st) (hs : st.run s = some st') :
    initial.run s = some st' := by
  have htells := tells_of_run hrun
  have hstretch : lastStretch front = [] := by
    rcases hfront with rfl | hlast
    · rfl
    · obtain ⟨before, rfl⟩ := List.getLast?_eq_some_iff.1 hlast
      rw [lastStretch_concat, if_pos (.inl rfl)]
  have hunopened : '[' ∉ front := fun hmem => opening_once hrun hs hmem hopening
  have hcolons : st.colons = 0 := by rw [htells.colons, hstretch, List.count_nil]
  have hpercent : st.percent = false := Bool.eq_false_iff.2 fun hpercent => by
    simpa [hstretch] using htells.percent.1 hpercent
  have hopened : st.opened = false := Bool.eq_false_iff.2 (mt htells.opened.1 hunopened)
  have hclosed : st.closed = false := Bool.eq_false_iff.2 fun hclosed =>
    hunopened (htells.order (htells.closed.1 hclosed)).1
  obtain ⟨colons, opened, closed, percent, endsInAt⟩ := st
  cases hcolons
  cases hpercent
  cases hopened
  cases hclosed
  obtain ⟨c, s, rfl⟩ := List.exists_cons_of_ne_nil (List.ne_nil_of_mem hopening)
  exact (run_endsInAt initial endsInAt c s).symm.trans hs

/-- A text with both brackets, or one with neither of them and without percent signs. -/
def IsWhole (s : List Char) : Prop :=
  '[' ∈ s ∧ ']' ∈ s ∨ '[' ∉ s ∧ ']' ∉ s ∧ '%' ∉ s

theorem isWhole_map_toLower {s : List Char} : IsWhole (s.map Char.toLower) ↔ IsWhole s := by
  rw [IsWhole, IsWhole, mem_map_toLower_iff rfl rfl, mem_map_toLower_iff rfl rfl,
    mem_map_toLower_iff rfl rfl]

/-- A host that is an authority has both brackets or neither, and without brackets there is nothing
behind which a percent sign would be forgotten. -/
theorem IsHost.isWhole_of_isAuthority {s : List Char} (hhost : IsHost s)
    (h : isAuthority s = true) : IsWhole s := by
  have hlegal := isLegal_of_isAuthority h
  by_cases hopening : '[' ∈ s
  · exact .inl ⟨hopening, hlegal.brackets.1 hopening⟩
  · have hclosing : ']' ∉ s := mt hlegal.brackets.2 hopening
    have hstretch : lastStretch s = s :=
      lastStretch_append_of_notMem [] hhost.at_notMem hclosing
    exact .inr ⟨hopening, hclosing, hstretch ▸ hlegal.percent⟩

/-- The host of an authority is an authority, if it has both brackets. -/
theorem isAuthority_host_of_brackets {s : List Char} (h : isAuthority s = true)
    (hopening : '[' ∈ host s) (hclosing : ']' ∈ host s) : isAuthority (host s) = true := by
  obtain ⟨front, rest, hs, hfront, hat⟩ := exists_append_host h
  obtain ⟨last, hrun, -⟩ := isAuthority_iff.1 h
  rw [hs] at hrun
  obtain ⟨before, hbefore, hrun⟩ := run_append_eq_some_iff.1 hrun
  obtain ⟨st, hhost, hrest⟩ := run_append_eq_some_iff.1 hrun
  have hinitial : initial.run (host s) = some st :=
    run_initial_of_opening hfront hopening hbefore hhost
  have htells := tells_of_run hinitial
  have hclosed : st.closed = true := htells.closed.2 hclosing
  refine isAuthority_iff.2 ⟨st, hinitial, accepts_iff.2 ⟨?_, ?_, ?_, ?_⟩⟩
  · rw [hclosed, htells.opened.2 hopening]
  · rw [htells.colons, List.count_eq_zero.2 (isHost_host s).colon_notMem_lastStretch]
    exact Nat.zero_le 1
  · exact Bool.eq_false_iff.2 fun hends =>
      (isHost_host s).at_notMem (List.mem_of_getLast? (htells.endsInAt.1 hends))
  · refine Bool.eq_false_iff.2 fun hpercent => (isLegal_of_isAuthority h).percent ?_
    -- the state is also the one behind all that stands in front of the rest, and what follows the
    -- host belongs to the last stretch
    have hboth := tells_of_run (run_append_eq_some_iff.2 ⟨before, hbefore, hhost⟩)
    have honce : ']' ∉ rest := closing_once hinitial hrest hclosing
    rw [hs, ← List.append_assoc, lastStretch_append_of_notMem _ hat honce]
    exact List.mem_append_left _ (hboth.percent.1 hpercent)

/-- The host of an authority is an authority by itself, unless it has one bracket of a pair, or a
percent sign and no brackets. -/
theorem isAuthority_host_iff {s : List Char} (h : isAuthority s = true) :
    isAuthority (host s) = true ↔ IsWhole (host s) := by
  refine ⟨(isHost_host s).isWhole_of_isAuthority, ?_⟩
  rintro (⟨hopening, hclosing⟩ | ⟨hopening, hclosing, hpercent⟩)
  · exact isAuthority_host_of_brackets h hopening hclosing
  · -- nothing but plain characters is left
    obtain ⟨front, rest, hs, -⟩ := exists_append_host h
    refine isAuthority_of_plain fun c hc => ?_
    have hmem : c ∈ s := by
      rw [hs]
      exact List.mem_append_right _ (List.mem_append_left _ hc)
    refine (isLegal_of_isAuthority h).chars c hmem fun hruled => ?_
    rcases mem_ruled.1 hruled with rfl | rfl | rfl | rfl | rfl
    · exact (isHost_host s).colon_notMem hopening hc
    · exact hopening hc
    · exact hclosing hc
    · exact (isHost_host s).at_notMem hc
    · exact hpercent hc

/-- A host in brackets has both of them. Where no brackets are opened, none are closed, and percent
signs stand in user information only. -/
theorem isWhole_host {s : List Char} (h : isAuthority s = true)
    (hbrackets : '[' ∉ s ∨ (host s).head? = some '[') : IsWhole (host s) := by
  rcases hbrackets with hopening | hhead
  · have hlegal := isLegal_of_isAuthority h
    have hclosing : ']' ∉ s := mt hlegal.brackets.2 hopening
    obtain ⟨front, rest, hs, -, hat⟩ := exists_append_host h
    have hmem : ∀ c ∈ host s ++ rest, c ∈ s := fun c hc => hs ▸ List.mem_append_right front hc
    have hhost : ∀ c ∈ host s, c ∈ s := fun c hc => hmem c (List.mem_append_left _ hc)
    have hat' : '@' ∉ host s ++ rest := fun hc =>
      (List.mem_append.1 hc).elim (isHost_host s).at_notMem hat
    refine .inr ⟨mt (hhost _) hopening, mt (hhost _) hclosing, fun hpercent => hlegal.percent ?_⟩
    rw [hs, lastStretch_append_of_notMem front hat' (mt (hmem _) hclosing)]
    exact List.mem_append_right _ (List.mem_append_left _ hpercent)
  · rcases host_cases s with ⟨inner, hinner⟩ | hname
    · rw [host_of_bracket hinner]
      exact .inl ⟨List.mem_cons_self, by simp⟩
    · rw [host_of_name hname] at hhead
      exact absurd hhead (head?_takeWhile_ne hname _)

/-! ## Ports -/

theorem isPlain_of_isDigit {c : Char} (h : c.isDigit = true) : isPlainAuthorityChar c = true := by
  simp [isPlainAuthorityChar, Char.isAlphanum, h]

/-- What is read as a port consists of digits, with at most a plus sign in front of them. -/
theorem isPlain_of_readPort {s : List Char} {p : Nat} (h : readPort s = some p) :
    ∀ c ∈ s, isPlainAuthorityChar c = true := by
  rw [readPort, Option.filter_eq_some_iff] at h
  unfold Numeral.unsigned? at h
  rw [Option.filter_eq_some_iff] at h
  obtain ⟨⟨hdigits, -⟩, -⟩ := h
  split at hdigits
  · have hall := (Numeral.digits?_eq_some_iff.1 hdigits).1.isDigit
    intro c hc
    rcases List.mem_cons.1 hc with rfl | hrest
    · decide
    · exact isPlain_of_isDigit (hall c hrest)
  · exact fun c hc =>
      isPlain_of_isDigit ((Numeral.digits?_eq_some_iff.1 hdigits).1.isDigit c hc)

/-- A site has no port. -/
theorem port_site {site : List Char} (h : ':' ∉ lastStretch site) : port site = none := by
  rw [port]
  split
  · next hcolon =>
    refine Option.eq_none_iff_forall_ne_some.2 fun p hp => h ?_
    obtain ⟨front, hfront, hends⟩ := exists_append_afterLast ':' site
    -- what would be read as a port belongs to the last stretch, with the colon in front of it
    have hall : ∀ c ∈ afterLast ':' site, c ≠ '@' ∧ c ≠ ']' := by
      intro c hc
      have hplain := notMem_ruled (isPlain_of_readPort hp c hc)
      exact ⟨fun heq => hplain (heq ▸ by decide), fun heq => hplain (heq ▸ by decide)⟩
    rcases hends with rfl | hlast
    · rw [List.nil_append] at hfront
      rw [hfront, List.contains_iff_mem] at hcolon
      exact absurd hcolon (notMem_afterLast ':' site)
    · obtain ⟨before, rfl⟩ := List.getLast?_eq_some_iff.1 hlast
      rw [hfront, lastStretch_append _ hall, lastStretch_concat, if_neg (by decide)]
      simp
  · rfl

theorem port_site_port (site : List Char) {text : List Char} (h : ':' ∉ text) :
    port (site ++ ':' :: text) = readPort text := by
  rw [port, if_pos (by simp), afterLast_append_cons site h]

end Gatehouse.Uri
