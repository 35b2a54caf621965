import Gatehouse.Proofs.Text.LetterCase
import Gatehouse.Proofs.Uri
import Mathlib.Data.List.DropRight

/-!
# Sites and ports

An authority is read from left to right, and an at sign or a closing bracket makes the reader
forget the colons and percent signs before it. So only what follows the last of them, the last
stretch, tells whether a port is written: an authority is a site without colons in its last
stretch, and behind it a port with its colon, or nothing.

- `AuthorityState.Takes`: what one character does to the state of the reader.
- `AuthorityState.Tells`: the state after a text, told by the text. One character preserves it
  (`Tells.step`), so it holds of whole texts (`tells_of_run`).
- `opening_once`, `closing_once`: what was opened or closed before is not again.
- `IsLegal`: what the reader asks of an authority, told by its text.
- `exists_site`: an authority is cut into site and port.
- `isAuthority_site_port`: the port behind a site may be changed.
- `isAuthority_map_toLower`: letter case.
-/

namespace Gatehouse.Uri

/-! ## The last stretch -/

section rtakeWhile

variable {α β : Type} {p : α → Bool}

theorem rtakeWhile_append_of_pos (s : List α) {t : List α} (h : ∀ x ∈ t, p x = true) :
    (s ++ t).rtakeWhile p = s.rtakeWhile p ++ t := by
  rw [List.rtakeWhile, List.reverse_append,
    List.takeWhile_append_of_pos fun x hx => h x (List.mem_reverse.1 hx), List.reverse_append,
    List.reverse_reverse]
  rfl

theorem rtakeWhile_append_cons_of_neg (s : List α) {x : α} {t : List α} (hx : p x = false)
    (h : ∀ y ∈ t, p y = true) : (s ++ x :: t).rtakeWhile p = t := by
  rw [← List.singleton_append, ← List.append_assoc, rtakeWhile_append_of_pos _ h,
    List.rtakeWhile_concat_neg _ _ _ (by simp [hx]), List.nil_append]

theorem rtakeWhile_map {f : β → α} {q : β → Bool} (h : ∀ x, p (f x) = q x) (s : List β) :
    (s.map f).rtakeWhile p = (s.rtakeWhile q).map f := by
  have hq : p ∘ f = q := funext h
  rw [List.rtakeWhile, ← List.map_reverse, List.takeWhile_map, hq, ← List.map_reverse]
  rfl

end rtakeWhile

/-- What follows the last at sign or closing bracket. -/
def lastStretch (s : List Char) : List Char :=
  s.rtakeWhile fun c => c ≠ '@' ∧ c ≠ ']'

theorem lastStretch_concat (s : List Char) (c : Char) :
    lastStretch (s ++ [c]) = if c = '@' ∨ c = ']' then [] else lastStretch s ++ [c] := by
  rw [lastStretch, List.rtakeWhile_concat]
  by_cases hc : c = '@' ∨ c = ']'
  · rw [if_pos hc, if_neg (by simpa only [decide_eq_true_iff, ← not_or, not_not] using hc)]
  · rw [if_neg hc, if_pos (by simpa only [decide_eq_true_iff, ← not_or] using hc)]
    rfl

theorem lastStretch_append (s : List Char) {t : List Char} (h : ∀ c ∈ t, c ≠ '@' ∧ c ≠ ']') :
    lastStretch (s ++ t) = lastStretch s ++ t :=
  rtakeWhile_append_of_pos s fun c hc => decide_eq_true (h c hc)

theorem lastStretch_append_of_notMem (s : List Char) {t : List Char} (hat : '@' ∉ t)
    (hclosing : ']' ∉ t) : lastStretch (s ++ t) = lastStretch s ++ t :=
  lastStretch_append s fun _ hc => ⟨fun heq => hat (heq ▸ hc), fun heq => hclosing (heq ▸ hc)⟩

theorem ne_of_mem_lastStretch {s : List Char} {c : Char} (h : c ∈ lastStretch s) :
    c ≠ '@' ∧ c ≠ ']' :=
  of_decide_eq_true (List.mem_rtakeWhile_imp (p := fun c => decide (c ≠ '@' ∧ c ≠ ']')) h)

theorem lastStretch_subset (s : List Char) : lastStretch s ⊆ s :=
  (List.rtakeWhile_suffix _ _).subset

/-! ## One character -/

namespace AuthorityState

/-- The signs that the reader has rules for. -/
def ruled : List Char :=
  [':', '[', ']', '@', '%']

theorem mem_ruled {c : Char} :
    c ∈ ruled ↔ c = ':' ∨ c = '[' ∨ c = ']' ∨ c = '@' ∨ c = '%' := by
  simp only [ruled, List.mem_cons, List.not_mem_nil, or_false]

/-- What a character does to the state. -/
inductive Takes (st : AuthorityState) : Char → AuthorityState → Prop where
  | colon : Takes st ':' { st with colons := st.colons + 1, endsInAt := false }
  | opening (hpercent : st.percent = false) (hopened : st.opened = false) :
    Takes st '[' { st with opened := true, endsInAt := false }
  | closing (hopened : st.opened = true) (hclosed : st.closed = false) :
    Takes st ']' ⟨0, true, true, false, false⟩
  | site : Takes st '@' ⟨0, st.opened, st.closed, false, true⟩
  | percent : Takes st '%' { st with percent := true, endsInAt := false }
  | plain {c : Char} (hruled : c ∉ ruled) (hplain : isPlainAuthorityChar c = true) :
    Takes st c { st with endsInAt := false }

theorem takes_of_step {st st' : AuthorityState} {c : Char} (h : st.step c = some st') :
    Takes st c st' := by
  obtain ⟨colons, opened, closed, percent, endsInAt⟩ := st
  unfold step at h
  dsimp only at h
  split at h
  · split at h
    · cases h
    · cases h
      exact .colon
  · split at h
    · cases h
    · next hfree =>
      cases h
      rw [Bool.or_eq_true, not_or, Bool.not_eq_true, Bool.not_eq_true] at hfree
      exact .opening hfree.1 hfree.2
  · split at h
    · cases h
    · next hopen =>
      cases h
      rw [Bool.or_eq_true, not_or, Bool.not_eq_true, Bool.not_eq_true, Bool.not_eq_false'] at hopen
      obtain ⟨rfl, rfl⟩ := hopen
      exact .closing rfl rfl
  · cases h
    exact .site
  · cases h
    exact .percent
  · next h1 h2 h3 h4 h5 =>
    split at h
    · next hplain =>
      cases h
      refine .plain (fun hruled => ?_) hplain
      rcases mem_ruled.1 hruled with h | h | h | h | h
      · exact h1 h
      · exact h2 h
      · exact h3 h
      · exact h4 h
      · exact h5 h
    · cases h

/-- Signs with a rule are not plain. -/
theorem notMem_ruled {c : Char} (h : isPlainAuthorityChar c = true) : c ∉ ruled := by
  intro hc
  have hall : ruled.any isPlainAuthorityChar = false := by decide
  exact List.any_eq_false.1 hall c hc h

theorem step_plain {c : Char} (h : isPlainAuthorityChar c = true) (st : AuthorityState) :
    st.step c = some { st with endsInAt := false } := by
  unfold step
  dsimp only
  split
  · exact absurd h (by decide)
  · exact absurd h (by decide)
  · exact absurd h (by decide)
  · exact absurd h (by decide)
  · exact absurd h (by decide)
  · exact if_pos h

/-- Letters are taken in any case. -/
theorem step_toLower (st : AuthorityState) (c : Char) : st.step c.toLower = st.step c := by
  rcases Text.toLower_eq_or_capital c with heq | hcapital
  · rw [heq]
  · have hplain : isPlainAuthorityChar c = true := by
      have hall : ∀ n < 26, isPlainAuthorityChar (Char.ofNat (0x41 + n)) = true := by decide
      have hc := hall (c.toNat - 0x41) (by omega)
      rwa [show 0x41 + (c.toNat - 0x41) = c.toNat by omega, Char.ofNat_toNat] at hc
    have hlower : isPlainAuthorityChar c.toLower = true := by
      rw [Text.apply_toLower isPlainAuthorityChar (by decide), hplain]
    rw [step_plain hplain, step_plain hlower]

/-! What a character does to each part of the state. -/

section Takes

variable {st st' : AuthorityState} {c : Char}

theorem Takes.legal (h : Takes st c st') (hc : c ∉ ruled) : isPlainAuthorityChar c = true := by
  cases h with
  | plain _ hplain => exact hplain
  | _ => exact absurd (by decide) hc

theorem Takes.endsInAt_iff (h : Takes st c st') : st'.endsInAt = true ↔ c = '@' := by
  cases h with
  | plain hc _ => exact iff_of_false nofun fun heq => hc (heq ▸ by decide)
  | _ => simp

theorem Takes.opened_iff (h : Takes st c st') :
    st'.opened = true ↔ st.opened = true ∨ c = '[' := by
  cases h with
  | closing hopened _ => simp [hopened]
  | plain hc _ => exact (or_iff_left fun heq : c = '[' => hc (heq ▸ by decide)).symm
  | _ => simp

theorem Takes.closed_iff (h : Takes st c st') :
    st'.closed = true ↔ st.closed = true ∨ c = ']' := by
  cases h with
  | plain hc _ => exact (or_iff_left fun heq : c = ']' => hc (heq ▸ by decide)).symm
  | _ => simp

theorem Takes.percent_iff (h : Takes st c st') :
    st'.percent = true ↔ ¬(c = '@' ∨ c = ']') ∧ (st.percent = true ∨ c = '%') := by
  cases h with
  | plain hc _ =>
    simp only [mem_ruled, not_or] at hc
    simp [hc]
  | _ => simp

theorem Takes.colons_eq (h : Takes st c st') :
    st'.colons = if c = '@' ∨ c = ']' then 0 else st.colons + [c].count ':' := by
  cases h with
  | plain hc _ =>
    simp only [mem_ruled, not_or] at hc
    simp [hc]
  | _ => simp

/-- Brackets are opened once, and not behind a percent sign. -/
theorem Takes.of_opening (h : Takes st '[' st') :
    st.percent = false ∧ st.opened = false ∧
      st' = { st with opened := true, endsInAt := false } := by
  cases h with
  | opening hpercent hopened => exact ⟨hpercent, hopened, rfl⟩
  | plain hruled _ => exact absurd (by decide) hruled

/-- Brackets are closed once, after they were opened, and then all is forgotten. -/
theorem Takes.of_closing (h : Takes st ']' st') :
    st.opened = true ∧ st.closed = false ∧ st' = ⟨0, true, true, false, false⟩ := by
  cases h with
  | closing hopened hclosed => exact ⟨hopened, hclosed, rfl⟩
  | plain hruled _ => exact absurd (by decide) hruled

end Takes

/-! ## The state after a text -/

/-- The state after a text, if the reader takes it. -/
def run (st : AuthorityState) (s : List Char) : Option AuthorityState :=
  s.foldlM step st

theorem run_append (st : AuthorityState) (s t : List Char) :
    st.run (s ++ t) = (st.run s).bind fun st' => st'.run t :=
  List.foldlM_append

theorem run_cons (st : AuthorityState) (c : Char) (s : List Char) :
    st.run (c :: s) = (st.step c).bind fun st' => st'.run s :=
  List.foldlM_cons

theorem run_append_eq_some_iff {st st' : AuthorityState} {s t : List Char} :
    st.run (s ++ t) = some st' ↔ ∃ next, st.run s = some next ∧ next.run t = some st' := by
  rw [run_append, Option.bind_eq_some_iff]

theorem run_cons_eq_some_iff {st st' : AuthorityState} {c : Char} {s : List Char} :
    st.run (c :: s) = some st' ↔ ∃ next, st.step c = some next ∧ next.run s = some st' := by
  rw [run_cons, Option.bind_eq_some_iff]

/-- Plain characters are only taken note of behind an at sign. -/
theorem run_plain {s : List Char} (h : ∀ c ∈ s, isPlainAuthorityChar c = true)
    {st : AuthorityState} (hat : st.endsInAt = false) : st.run s = some st := by
  induction s with
  | nil => rfl
  | cons c s ih =>
    rw [List.forall_mem_cons] at h
    obtain ⟨colons, opened, closed, percent, endsInAt⟩ := st
    cases hat
    rw [run_cons, step_plain h.1]
    exact ih h.2

theorem run_map_toLower (st : AuthorityState) (s : List Char) :
    st.run (s.map Char.toLower) = st.run s := by
  induction s generalizing st with
  | nil => rfl
  | cons c s ih =>
    rw [List.map_cons, run_cons, run_cons, step_toLower]
    exact congrArg (Option.bind _) (funext ih)

/-- The state after a text, told by the text. Brackets are opened once and closed once, in this
order, and nothing opens them behind the place where they are closed. -/
structure Tells (st : AuthorityState) (s : List Char) : Prop where
  colons : st.colons = (lastStretch s).count ':'
  percent : st.percent = true ↔ '%' ∈ lastStretch s
  opened : st.opened = true ↔ '[' ∈ s
  closed : st.closed = true ↔ ']' ∈ s
  endsInAt : st.endsInAt = true ↔ s.getLast? = some '@'
  order : ']' ∈ s → '[' ∈ s ∧ '[' ∉ lastStretch s
  legal : ∀ c ∈ s, c ∉ ruled → isPlainAuthorityChar c = true

theorem tells_initial : Tells initial [] where
  colons := rfl
  percent := by decide
  opened := by decide
  closed := by decide
  endsInAt := by decide
  order := nofun
  legal := nofun

theorem Tells.order_step {st st' : AuthorityState} {s : List Char} {c : Char} (h : Tells st s)
    (hc : Takes st c st') (hclosed : ']' ∈ s ++ [c]) :
    '[' ∈ s ++ [c] ∧ '[' ∉ lastStretch (s ++ [c]) := by
  rw [List.mem_append, List.mem_singleton] at hclosed
  rw [lastStretch_concat]
  by_cases hclosing : c = ']'
  · -- brackets that are closed now were opened before
    subst hclosing
    exact ⟨List.mem_append_left _ (h.opened.1 hc.of_closing.1), List.not_mem_nil⟩
  · have hs := h.order (hclosed.resolve_right (Ne.symm hclosing))
    refine ⟨List.mem_append_left _ hs.1, ?_⟩
    have hopening : '[' ≠ c := by
      rintro rfl
      exact absurd (h.opened.2 hs.1) (by simp [hc.of_opening.2.1])
    split
    · exact List.not_mem_nil
    · simp [hs.2, hopening]

/-- One character more. -/
theorem Tells.step {st st' : AuthorityState} {s : List Char} {c : Char} (h : Tells st s)
    (hc : Takes st c st') : Tells st' (s ++ [c]) where
  colons := by
    rw [hc.colons_eq, lastStretch_concat, h.colons]
    split
    · rfl
    · exact List.count_append.symm
  percent := by
    rw [hc.percent_iff, lastStretch_concat, h.percent]
    split
    · next hcloses => simp [hcloses]
    · next hcloses => simp [hcloses, eq_comm]
  opened := by rw [hc.opened_iff, h.opened, List.mem_append, List.mem_singleton, eq_comm]
  closed := by rw [hc.closed_iff, h.closed, List.mem_append, List.mem_singleton, eq_comm]
  endsInAt := by rw [hc.endsInAt_iff, List.getLast?_concat, Option.some.injEq]
  order := h.order_step hc
  legal := by
    intro d hd hruled
    rcases List.mem_append.1 hd with hd | hd
    · exact h.legal d hd hruled
    · cases List.mem_singleton.1 hd
      exact hc.legal hruled

/-- Whole texts. -/
theorem tells_of_run {s : List Char} {st : AuthorityState} (h : initial.run s = some st) :
    Tells st s := by
  induction s using List.reverseRecOn generalizing st with
  | nil =>
    cases h
    exact tells_initial
  | append_singleton s c ih =>
    obtain ⟨before, hbefore, hc⟩ := run_append_eq_some_iff.1 h
    obtain ⟨after, hstep, hafter⟩ := run_cons_eq_some_iff.1 hc
    cases hafter
    exact (ih hbefore).step (takes_of_step hstep)

section Once

variable {st st' : AuthorityState} {s t : List Char}

/-- Every character is taken in the state behind all that stands in front of it. -/
theorem exists_takes (hs : initial.run s = some st) (ht : st.run t = some st') {c : Char}
    (hc : c ∈ t) : ∃ between before after, Tells before (s ++ between) ∧ Takes before c after := by
  obtain ⟨between, rest, rfl⟩ := List.append_of_mem hc
  obtain ⟨before, hbetween, hrest⟩ := run_append_eq_some_iff.1 ht
  obtain ⟨after, hstep, -⟩ := run_cons_eq_some_iff.1 hrest
  exact ⟨between, before, after, tells_of_run (run_append_eq_some_iff.2 ⟨st, hs, hbetween⟩),
    takes_of_step hstep⟩

theorem opening_once (hs : initial.run s = some st) (ht : st.run t = some st') (h : '[' ∈ s) :
    '[' ∉ t := by
  intro hmem
  obtain ⟨between, before, after, htells, htakes⟩ := exists_takes hs ht hmem
  exact absurd (htells.opened.2 (List.mem_append_left _ h)) (by simp [htakes.of_opening.2.1])

theorem closing_once (hs : initial.run s = some st) (ht : st.run t = some st') (h : ']' ∈ s) :
    ']' ∉ t := by
  intro hmem
  obtain ⟨between, before, after, htells, htakes⟩ := exists_takes hs ht hmem
  exact absurd (htells.closed.2 (List.mem_append_left _ h)) (by simp [htakes.of_closing.2.1])

end Once

end AuthorityState

open AuthorityState

theorem isAuthority_iff {s : List Char} :
    isAuthority s = true ↔ ∃ st, initial.run s = some st ∧ st.accepts = true := by
  unfold isAuthority run
  cases s.foldlM AuthorityState.step initial with
  | none => simp
  | some st => simp

theorem AuthorityState.accepts_iff {st : AuthorityState} :
    st.accepts = true ↔
      st.opened = st.closed ∧ st.colons ≤ 1 ∧ st.endsInAt = false ∧ st.percent = false := by
  simp [accepts, and_assoc]

theorem isAuthority_map_toLower (s : List Char) :
    isAuthority (s.map Char.toLower) = isAuthority s := by
  rw [Bool.eq_iff_iff, isAuthority_iff, isAuthority_iff, run_map_toLower]

/-- What the reader asks of an authority, told by its text. -/
structure IsLegal (s : List Char) : Prop where
  colons : (lastStretch s).count ':' ≤ 1
  percent : '%' ∉ lastStretch s
  brackets : '[' ∈ s ↔ ']' ∈ s
  order : '[' ∉ lastStretch s
  chars : ∀ c ∈ s, c ∉ ruled → isPlainAuthorityChar c = true

theorem isLegal_of_isAuthority {s : List Char} (h : isAuthority s = true) : IsLegal s := by
  obtain ⟨st, hrun, haccepts⟩ := isAuthority_iff.1 h
  have htells := tells_of_run hrun
  obtain ⟨hbrackets, hcolons, -, hpercent⟩ := accepts_iff.1 haccepts
  have hboth : '[' ∈ s ↔ ']' ∈ s := by rw [← htells.opened, hbrackets, htells.closed]
  exact
    { colons := htells.colons ▸ hcolons
      percent := fun hmem => absurd (htells.percent.2 hmem) (by simp [hpercent])
      brackets := hboth
      order := fun hmem => (htells.order (hboth.1 (lastStretch_subset s hmem))).2 hmem
      chars := htells.legal }

/-- In the last stretch, all but a colon is plain. -/
theorem IsLegal.isPlain {s : List Char} (h : IsLegal s) {c : Char} (hc : c ∈ lastStretch s)
    (hcolon : c ≠ ':') : isPlainAuthorityChar c = true := by
  refine h.chars c (lastStretch_subset s hc) fun hruled => ?_
  rcases mem_ruled.1 hruled with rfl | rfl | rfl | rfl | rfl
  · exact hcolon rfl
  · exact h.order hc
  · exact (ne_of_mem_lastStretch hc).2 rfl
  · exact (ne_of_mem_lastStretch hc).1 rfl
  · exact h.percent hc

/-! ## Sites and ports -/

/-- A port with its colon, or nothing. -/
def IsPort (s : List Char) : Prop :=
  s = [] ∨ ∃ text, s = ':' :: text ∧ ∀ c ∈ text, isPlainAuthorityChar c = true

theorem IsPort.ne_ruled {s : List Char} (h : IsPort s) {c : Char} (hc : c ∈ s) {d : Char}
    (hd : d ∈ ruled) (hcolon : d ≠ ':') : c ≠ d := by
  rintro rfl
  rcases h with rfl | ⟨text, rfl, hplain⟩
  · cases hc
  · rcases List.mem_cons.1 hc with heq | hmem
    · exact hcolon heq
    · exact notMem_ruled (hplain c hmem) hd

theorem IsPort.unended {s : List Char} (h : IsPort s) : IsUnended s := by
  have hplain : ∀ c : Char, endsAuthority c = true → isPlainAuthorityChar c = false := by
    intro c hc
    simp only [endsAuthority, Bool.or_eq_true, beq_iff_eq] at hc
    rcases hc with (rfl | rfl) | rfl
    · decide
    · decide
    · decide
  intro c hc
  refine Bool.eq_false_iff.2 fun hends => ?_
  rcases h with rfl | ⟨text, rfl, htext⟩
  · cases hc
  · rcases List.mem_cons.1 hc with rfl | hmem
    · exact absurd hends (by decide)
    · exact absurd (hplain c hends) (by simp [htext c hmem])

/-- The port does not matter, unless there is no host in front of it. -/
theorem isAuthority_site_port {site port : List Char} (hsite : ':' ∉ lastStretch site)
    (hport : IsPort port) (hat : site.getLast? ≠ some '@') :
    isAuthority (site ++ port) = isAuthority site := by
  rcases hport with rfl | ⟨text, rfl, hplain⟩
  · rw [List.append_nil]
  · rw [Bool.eq_iff_iff, isAuthority_iff, isAuthority_iff, run_append]
    cases hrun : initial.run site with
    | none => simp
    | some st =>
      have htells := tells_of_run hrun
      obtain ⟨colons, opened, closed, percent, endsInAt⟩ := st
      have hcolons : colons = 0 := htells.colons.trans (List.count_eq_zero.2 hsite)
      have hends : endsInAt = false := Bool.eq_false_iff.2 fun h => hat (htells.endsInAt.1 h)
      subst hcolons hends
      have hstep : run ⟨0, opened, closed, percent, false⟩ (':' :: text) =
          some ⟨1, opened, closed, percent, false⟩ :=
        run_plain hplain rfl
      rw [Option.bind_some, hstep]
      simp [accepts_iff]

theorem exists_append_lastStretch (s : List Char) : ∃ front, s = front ++ lastStretch s := by
  obtain ⟨front, hfront⟩ := List.rtakeWhile_suffix (fun c => decide (c ≠ '@' ∧ c ≠ ']')) s
  exact ⟨front, hfront.symm⟩

/-- Every authority is cut into site and port. -/
theorem exists_site {s : List Char} (h : isAuthority s = true) :
    ∃ site port, s = site ++ port ∧ ':' ∉ lastStretch site ∧ IsPort port := by
  have hlegal := isLegal_of_isAuthority h
  by_cases hcolon : ':' ∈ lastStretch s
  · -- there is one colon in the last stretch, and the port is what follows it
    obtain ⟨before, text, hstretch⟩ := List.append_of_mem hcolon
    have hcount : before.count ':' = 0 ∧ text.count ':' = 0 := by
      have hcolons := hlegal.colons
      rw [hstretch, List.count_append, List.count_cons_self] at hcolons
      omega
    have hmem : ∀ c ∈ text, c ∈ lastStretch s := fun c hc => by
      rw [hstretch]
      exact List.mem_append_right _ (List.mem_cons_of_mem _ hc)
    have hplain : ∀ c ∈ text, isPlainAuthorityChar c = true := fun c hc =>
      hlegal.isPlain (hmem c hc) fun heq => List.count_eq_zero.1 hcount.2 (heq ▸ hc)
    obtain ⟨front, hfront⟩ := exists_append_lastStretch s
    rw [hstretch, ← List.append_assoc] at hfront
    have hsite : lastStretch (front ++ before) ++ ':' :: text = before ++ ':' :: text := by
      rw [← lastStretch_append _ fun c hc => ?_, ← hfront, hstretch]
      rcases List.mem_cons.1 hc with rfl | hrest
      · decide
      · exact ne_of_mem_lastStretch (hmem c hrest)
    refine ⟨front ++ before, ':' :: text, hfront, ?_, .inr ⟨text, rfl, hplain⟩⟩
    rw [List.append_cancel_right hsite]
    exact List.count_eq_zero.1 hcount.1
  · exact ⟨s, [], (List.append_nil s).symm, hcolon, .inl rfl⟩

end Gatehouse.Uri
