import Mathlib.Data.List.TakeWhile
import Gatehouse.Uri

/-!
# What an address is taken apart into

An address is read from left to right: scheme, authority, path, query. The lemmas here say for
each part which characters it cannot contain, and where it ends if an address was put together
from parts.

- `splitScheme_append`: a scheme in front of a colon and two slashes is found again.
- `splitAuthority_append` and `splitAuthority_eq_some`: an authority reaches to the first slash,
  question mark or number sign.
- `targetPath` and `targetQuery`: path and query of what follows an authority.
- `withoutFragment`, `withoutQuery`: cutting off fragment and query, in one order or the other.
- `splitTarget_eq_some_iff`: which targets can be read, and as what.
- `parse_eq_some`: addresses with a scheme.
-/

namespace Gatehouse.Uri

/-! ## Characters -/

/-- Only letters are changed by lower case, and only into letters. -/
theorem eq_of_toLower_eq {c d : Char} (h : c.toLower = d) (hd : d.isLower = false) : c = d := by
  unfold Char.toLower at h
  split at h
  · next hupper =>
    -- a capital becomes a small letter, which `d` is not
    subst h
    simp only [UInt32.le_iff_toNat_le, ge_iff_le] at hupper
    change (decide (_ ≥ 'a'.val) && decide (_ ≤ 'z'.val)) = false at hd
    simp only [UInt32.le_iff_toNat_le, UInt32.toNat_add, Bool.and_eq_false_iff,
      decide_eq_false_iff_not, ge_iff_le] at hd
    have hA : 'A'.val.toNat = 65 := rfl
    have hZ : 'Z'.val.toNat = 90 := rfl
    have ha : 'a'.val.toNat = 97 := rfl
    have hz : 'z'.val.toNat = 122 := rfl
    have hshift : ('a'.val - 'A'.val).toNat = 32 := rfl
    omega
  · exact h

theorem notMem_map_toLower {c : Char} (hc : c.isLower = false) {s : List Char} (h : c ∉ s) :
    c ∉ s.map Char.toLower := by
  intro hmem
  obtain ⟨d, hd, heq⟩ := List.mem_map.1 hmem
  exact h (eq_of_toLower_eq heq hc ▸ hd)

/-- In this form the absence of a character is asked for by `takeWhile` and `dropWhile`. -/
theorem decide_ne_of_notMem {d : Char} {s : List Char} (h : d ∉ s) :
    ∀ c ∈ s, decide (c ≠ d) = true := by
  intro c hc
  rw [decide_eq_true_iff]
  rintro rfl
  exact h hc

/-- What follows the first of a separator does not matter to what precedes it. -/
theorem takeWhile_append_of_mem {sep : Char} {s : List Char} (h : sep ∈ s) (t : List Char) :
    (s ++ t).takeWhile (· ≠ sep) = s.takeWhile (· ≠ sep) := by
  induction s with
  | nil => cases h
  | cons c s ih =>
    by_cases hc : c = sep
    · subst hc
      rw [List.cons_append, List.takeWhile_cons_of_neg (by simp),
        List.takeWhile_cons_of_neg (by simp)]
    · have hs : sep ∈ s := (List.mem_cons.1 h).resolve_left (Ne.symm hc)
      rw [List.cons_append, List.takeWhile_cons_of_pos (by simpa using hc),
        List.takeWhile_cons_of_pos (by simpa using hc), ih hs]

/-! ## Fragments -/

theorem notMem_withoutFragment (s : List Char) : '#' ∉ withoutFragment s := by
  intro hmem
  simpa using List.mem_takeWhile_imp hmem

theorem withoutFragment_of_notMem {s : List Char} (h : '#' ∉ s) : withoutFragment s = s :=
  List.takeWhile_eq_self_iff.2 (decide_ne_of_notMem h)

theorem withoutFragment_idem (s : List Char) :
    withoutFragment (withoutFragment s) = withoutFragment s :=
  withoutFragment_of_notMem (notMem_withoutFragment s)

/-- What follows a fragment mark is forgotten. -/
theorem withoutFragment_append_of_mem {s : List Char} (h : '#' ∈ s) (t : List Char) :
    withoutFragment (s ++ t) = withoutFragment s :=
  takeWhile_append_of_mem h t

/-- A text in front of a fragment mark is kept. -/
theorem withoutFragment_append_of_notMem {s : List Char} (h : '#' ∉ s) (t : List Char) :
    withoutFragment (s ++ t) = s ++ withoutFragment t :=
  List.takeWhile_append_of_pos (decide_ne_of_notMem h)

/-! ## Texts without their query -/

/-- A text up to its first question mark. -/
def withoutQuery (s : List Char) : List Char :=
  s.takeWhile (· ≠ '?')

theorem notMem_withoutQuery (s : List Char) : '?' ∉ withoutQuery s := by
  intro hmem
  simpa using List.mem_takeWhile_imp hmem

theorem withoutQuery_of_notMem {s : List Char} (h : '?' ∉ s) : withoutQuery s = s :=
  List.takeWhile_eq_self_iff.2 (decide_ne_of_notMem h)

/-- A text in front of a question mark is kept. -/
theorem withoutQuery_append_of_notMem {s : List Char} (h : '?' ∉ s) (t : List Char) :
    withoutQuery (s ++ t) = s ++ withoutQuery t :=
  List.takeWhile_append_of_pos (decide_ne_of_notMem h)

/-- Query and fragment can be cut off in any order. -/
theorem withoutFragment_withoutQuery (s : List Char) :
    withoutFragment (withoutQuery s) = withoutQuery (withoutFragment s) := by
  simp only [withoutFragment, withoutQuery, List.takeWhile_takeWhile]
  congr 1
  funext c
  rw [decide_eq_decide]
  exact and_comm

/-! ## Schemes -/

/-- A text that is a scheme as far as its characters go. -/
def IsScheme (s : List Char) : Prop :=
  ∀ c ∈ s, isSchemeChar c = true

theorem IsScheme.ne_colon {s : List Char} (h : IsScheme s) {c : Char} (hc : c ∈ s) : c ≠ ':' := by
  rintro rfl
  exact absurd (h _ hc) (by decide)

/-- The three ways to find a scheme: the two common ones in any letter case, and any other one in
front of a colon and two slashes. -/
theorem splitScheme_eq_some {s scheme rest : List Char}
    (h : splitScheme s = some (some scheme, rest)) :
    (startsWith s "http://".toList = true ∧ scheme = "http".toList ∧ rest = s.drop 7) ∨
    (startsWith s "https://".toList = true ∧ scheme = "https".toList ∧ rest = s.drop 8) ∨
    (scheme = s.takeWhile isSchemeChar ∧ s.dropWhile isSchemeChar = ':' :: '/' :: '/' :: rest) := by
  simp only [splitScheme] at h
  split at h
  · cases h
    exact .inl ⟨‹_›, rfl, rfl⟩
  · split at h
    · cases h
      exact .inr (.inl ⟨‹_›, rfl, rfl⟩)
    · refine .inr (.inr ?_)
      split at h
      · next hrest =>
        split at h
        · cases h
        · split at h
          · cases h
          · cases h
            exact ⟨rfl, hrest⟩
      · cases h

theorem isScheme_http : IsScheme "http".toList :=
  List.all_eq_true.1 rfl

theorem isScheme_https : IsScheme "https".toList :=
  List.all_eq_true.1 rfl

/-- The scheme of an address consists of scheme characters. -/
theorem isScheme_of_splitScheme {s scheme rest : List Char}
    (h : splitScheme s = some (some scheme, rest)) : IsScheme scheme := by
  rcases splitScheme_eq_some h with ⟨-, rfl, -⟩ | ⟨-, rfl, -⟩ | ⟨rfl, -⟩
  · exact isScheme_http
  · exact isScheme_https
  · exact fun c hc => List.mem_takeWhile_imp hc

/-- In a text that starts with a scheme and a colon, the colon stands where it stands in any start
of the text, read in lower case. -/
theorem length_eq_of_startsWith {scheme rest after : List Char} (hs : IsScheme scheme)
    (start : List Char) (hstart : ':' ∉ start)
    (h : startsWith (scheme ++ ':' :: rest) (start ++ ':' :: after) = true) :
    scheme.length = start.length := by
  unfold startsWith at h
  rw [beq_iff_eq] at h
  induction scheme generalizing start with
  | nil =>
    cases start with
    | nil => rfl
    | cons c start =>
      -- the colon after the scheme would stand within the start
      simp only [List.nil_append, List.cons_append, List.length_cons, List.take_succ_cons,
        List.map_cons, List.cons.injEq] at h
      exact absurd (h.1 ▸ List.mem_cons_self) hstart
  | cons c scheme ih =>
    cases start with
    | nil =>
      -- the colon after the start would stand within the scheme
      simp only [List.nil_append, List.cons_append, List.length_cons, List.take_succ_cons,
        List.map_cons, List.cons.injEq] at h
      exact absurd (eq_of_toLower_eq h.1 (by decide)) (hs.ne_colon List.mem_cons_self)
    | cons d start =>
      simp only [List.cons_append, List.length_cons, List.take_succ_cons, List.map_cons,
        List.cons.injEq] at h
      rw [List.length_cons, List.length_cons,
        ih (fun x hx => hs x (List.mem_cons_of_mem c hx)) start
          (fun hmem => hstart (List.mem_cons_of_mem d hmem)) h.2]

/-- A scheme in front of a colon and two slashes is where the scheme ends. -/
theorem splitScheme_append {scheme rest scheme' rest' : List Char} (hs : IsScheme scheme)
    (h : splitScheme (scheme ++ ':' :: '/' :: '/' :: rest) = some (some scheme', rest')) :
    rest' = rest := by
  have hdrop : ∀ n, scheme.length = n →
      (scheme ++ ':' :: '/' :: '/' :: rest).drop (n + 3) = rest := by
    rintro _ rfl
    rw [List.drop_length_add_append]
    rfl
  rcases splitScheme_eq_some h with ⟨hstart, -, rfl⟩ | ⟨hstart, -, rfl⟩ | ⟨-, hrest⟩
  · exact hdrop 4 (length_eq_of_startsWith hs "http".toList (by decide) hstart)
  · exact hdrop 5 (length_eq_of_startsWith hs "https".toList (by decide) hstart)
  · rw [List.dropWhile_append_of_pos hs] at hrest
    exact (List.cons.inj (List.cons.inj (List.cons.inj hrest).2).2).2.symm

/-! ## Authorities -/

/-- A text without the characters that end an authority. -/
def IsUnended (s : List Char) : Prop :=
  ∀ c ∈ s, endsAuthority c = false

theorem IsUnended.notMem {s : List Char} (h : IsUnended s) {c : Char}
    (hc : endsAuthority c = true) : c ∉ s := by
  intro hmem
  rw [h c hmem] at hc
  cases hc

/-- An authority reaches to the first character that ends it. -/
theorem splitAuthority_eq_some {s authority target : List Char}
    (h : splitAuthority s = some (authority, target)) :
    IsUnended authority ∧ authority = s.takeWhile (fun c => !endsAuthority c) ∧
      target = s.dropWhile fun c => !endsAuthority c := by
  simp only [splitAuthority] at h
  split at h
  · cases h
    refine ⟨fun c hc => ?_, rfl, rfl⟩
    simpa using List.mem_takeWhile_imp hc
  · cases h

/-- What follows an authority begins with a character that ends it. -/
theorem head_of_splitAuthority {s authority target : List Char}
    (h : splitAuthority s = some (authority, target)) {c : Char} {rest : List Char}
    (htarget : target = c :: rest) : endsAuthority c = true := by
  obtain ⟨-, -, hdrop⟩ := splitAuthority_eq_some h
  have hhead := List.head?_dropWhile_not (fun c => !endsAuthority c) s
  rw [← hdrop, htarget] at hhead
  simpa using hhead

/-- An authority in front of a character that ends it is found again. -/
theorem splitAuthority_append {authority target authority' target' : List Char}
    (hauthority : IsUnended authority)
    (htarget : ∀ c rest, target = c :: rest → endsAuthority c = true)
    (h : splitAuthority (authority ++ target) = some (authority', target')) :
    authority' = authority ∧ target' = target := by
  have hplain : ∀ c ∈ authority, (!endsAuthority c) = true := by
    intro c hc
    rw [hauthority c hc]
    rfl
  obtain ⟨-, htake, hdrop⟩ := splitAuthority_eq_some h
  rw [List.takeWhile_append_of_pos hplain] at htake
  rw [List.dropWhile_append_of_pos hplain] at hdrop
  cases target with
  | nil => exact ⟨by simpa using htake, by simpa using hdrop⟩
  | cons c rest =>
    have hc := htarget c rest rfl
    exact ⟨by simpa [hc] using htake, by simpa [hc] using hdrop⟩

theorem afterLast_subset (sep : Char) (s : List Char) : afterLast sep s ⊆ s := by
  intro c hc
  rw [afterLast, List.mem_reverse] at hc
  exact List.mem_reverse.1 (List.takeWhile_subset _ hc)

/-- A host has the characters of its authority, and perhaps a closing bracket. -/
theorem mem_host {authority : List Char} {c : Char} (h : c ∈ host authority) :
    c ∈ authority ∨ c = ']' := by
  simp only [host] at h
  split at h
  · rcases List.mem_append.1 h with hleft | hright
    · exact .inl (afterLast_subset '@' authority (List.takeWhile_subset _ hleft))
    · exact .inr (List.mem_singleton.1 hright)
  · exact .inl (afterLast_subset '@' authority (List.takeWhile_subset _ h))

/-! ## Targets -/

/-- The path of what follows an authority; a slash if nothing is written. -/
def targetPath (target : List Char) : List Char :=
  let path := (withoutFragment target).takeWhile (· ≠ '?')
  if path.isEmpty then ['/'] else path

/-- The query of what follows an authority. -/
def targetQuery (target : List Char) : Option (List Char) :=
  match (withoutFragment target).dropWhile (· ≠ '?') with
  | [] => none
  | _ :: query => some query

/-- The query is what follows the first question mark. -/
theorem targetQuery_append {before query : List Char} (hbefore : '?' ∉ before)
    (h : '#' ∉ before ++ '?' :: query) : targetQuery (before ++ '?' :: query) = some query := by
  rw [targetQuery, withoutFragment_of_notMem h,
    List.dropWhile_append_of_pos (decide_ne_of_notMem hbefore)]
  rfl

theorem splitTarget_eq_some_iff {target path : List Char} {query : Option (List Char)} :
    splitTarget target = some (path, query) ↔
      (path = withoutQuery (withoutFragment target) ∧ query = targetQuery target) ∧
        path.all isPathChar = true ∧ (query.getD []).all isQueryChar = true := by
  have hparts : splitTarget target =
      if (withoutQuery (withoutFragment target)).all isPathChar &&
          ((targetQuery target).getD []).all isQueryChar then
        some (withoutQuery (withoutFragment target), targetQuery target) else none :=
    rfl
  rw [hparts]
  constructor
  · intro h
    split at h
    · next hlegal =>
      cases h
      exact ⟨⟨rfl, rfl⟩, Bool.and_eq_true_iff.1 hlegal⟩
    · cases h
  · rintro ⟨⟨rfl, rfl⟩, hlegal⟩
    rw [if_pos (Bool.and_eq_true_iff.2 hlegal)]

theorem ofTarget_eq_some {scheme authority : Option (List Char)} {target : List Char} {u : Uri}
    (h : ofTarget scheme authority target = some u) :
    u = ⟨scheme.map String.ofList, authority.map String.ofList,
      String.ofList (targetPath target), (targetQuery target).map String.ofList⟩ := by
  simp only [ofTarget, Option.map_eq_some_iff] at h
  obtain ⟨⟨path, query⟩, hsplit, rfl⟩ := h
  obtain ⟨⟨hpath, rfl⟩, -⟩ := splitTarget_eq_some_iff.1 hsplit
  have hcut : path = (withoutFragment target).takeWhile (· ≠ '?') := hpath
  subst hcut
  simp only [targetPath]
  congr 1
  split
  · rfl
  · rfl

/-- A path begins with a slash, if what follows an authority begins where the authority ends. -/
theorem targetPath_eq_cons {target : List Char}
    (h : ∀ c rest, target = c :: rest → endsAuthority c = true) :
    ∃ path, targetPath target = '/' :: path := by
  cases target with
  | nil => exact ⟨[], rfl⟩
  | cons c rest =>
    have hc := h c rest rfl
    simp only [endsAuthority, Bool.or_eq_true, beq_iff_eq] at hc
    rcases hc with (rfl | rfl) | rfl
    · exact ⟨(withoutFragment rest).takeWhile (· ≠ '?'), by simp [targetPath, withoutFragment]⟩
    · exact ⟨[], by simp [targetPath, withoutFragment]⟩
    · exact ⟨[], by simp [targetPath, withoutFragment]⟩

/-- A path contains neither a question mark nor a number sign. -/
theorem notMem_targetPath (target : List Char) :
    '?' ∉ targetPath target ∧ '#' ∉ targetPath target := by
  simp only [targetPath]
  split
  · decide
  · constructor
    · intro hmem
      simpa using List.mem_takeWhile_imp hmem
    · exact fun hmem => notMem_withoutFragment target (List.takeWhile_subset _ hmem)

/-- A path in front of nothing is all there is to it. -/
theorem targetPath_of_path {path : List Char} (hquery : '?' ∉ path) (hfragment : '#' ∉ path)
    (hne : path ≠ []) : targetPath path = path ∧ targetQuery path = none := by
  have hall := decide_ne_of_notMem hquery
  constructor
  · simp only [targetPath, withoutFragment_of_notMem hfragment,
      List.takeWhile_eq_self_iff.2 hall]
    simp [hne]
  · simp only [targetQuery, withoutFragment_of_notMem hfragment,
      List.dropWhile_eq_nil_iff.2 hall]

/-! ## Addresses -/

/-- The four forms of an address: an asterisk, an authority, a path, and an address with a
scheme, which is read part by part. -/
theorem parse_cases {text : String} {u : Uri} (h : parse text = some u) :
    u = ⟨none, none, "*", none⟩ ∨ (∃ authority, u = ⟨none, some authority, "", none⟩) ∨
    (∃ target, u = ⟨none, none, String.ofList (targetPath target),
      (targetQuery target).map String.ofList⟩) ∨
    ∃ scheme rest authority target, splitScheme text.toList = some (some scheme, rest) ∧
      splitAuthority rest = some (authority, target) ∧
      u = ⟨some (String.ofList scheme), some (String.ofList authority),
        String.ofList (targetPath target), (targetQuery target).map String.ofList⟩ := by
  simp only [parse] at h
  split at h
  · cases h
  · split at h
    · cases h
    · cases h
      exact .inl rfl
    · exact .inr (.inr (.inl ⟨_, ofTarget_eq_some h⟩))
    · simp only [parseFull, Option.bind_eq_bind, Option.bind_eq_some_iff, Prod.exists] at h
      obtain ⟨scheme, rest, hsplit, authority, target, hauthority, h⟩ := h
      cases scheme with
      | none =>
        simp only at h
        split at h
        · cases h
          exact .inr (.inl ⟨_, rfl⟩)
        · cases h
      | some scheme =>
        simp only at h
        split at h
        · cases h
        · exact .inr (.inr (.inr
            ⟨scheme, rest, authority, target, hsplit, hauthority, ofTarget_eq_some h⟩))

/-- An address with a scheme is read part by part. -/
theorem parse_eq_some {text : String} {u : Uri} (h : parse text = some u)
    (hscheme : u.scheme ≠ none) :
    ∃ scheme rest authority target, splitScheme text.toList = some (some scheme, rest) ∧
      splitAuthority rest = some (authority, target) ∧
      u = ⟨some (String.ofList scheme), some (String.ofList authority),
        String.ofList (targetPath target), (targetQuery target).map String.ofList⟩ := by
  rcases parse_cases h with rfl | ⟨_, rfl⟩ | ⟨_, rfl⟩ | hparts
  · exact absurd rfl hscheme
  · exact absurd rfl hscheme
  · exact absurd rfl hscheme
  · exact hparts

/-- The path of an address contains neither a question mark nor a number sign. -/
theorem path_of_parse {text : String} {u : Uri} (h : parse text = some u) :
    '?' ∉ u.path.toList ∧ '#' ∉ u.path.toList := by
  rcases parse_cases h with rfl | ⟨_, rfl⟩ | ⟨_, rfl⟩ | ⟨_, _, _, _, -, -, rfl⟩
  · decide
  · exact ⟨List.not_mem_nil, List.not_mem_nil⟩
  · simpa using notMem_targetPath _
  · simpa using notMem_targetPath _

end Gatehouse.Uri
