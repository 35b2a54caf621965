import Gatehouse.Text.Split

/-!
# Pieces and separators

Cutting a text at its separators and joining pieces with separators undo each other. The second
way round holds for pieces that contain no separator: then the text tells where each piece ends,
and two lists of pieces that are joined to the same text are the same.

- `join_split`: the pieces of a text are joined to the text.
- `split_join`, `filter_split_join` and `join_injective`: joined pieces are found again.
- `length_split`, `split_eq_pair_iff`: how many pieces there are, and when there are two.
- `dropStart?_append`: the beginning of a text, and the rest.
- `splitOnce_append`, `splitOnce_of_notMem`: what stands before and after the first separator.
- `append_sep_inj`, `append_sep_inj_right`: a text is cut at a separator in one way only, if there
  is no other one before it, or no other one after it.
-/

namespace Gatehouse.Text

variable {sep : Char}

/-! ## Splitting -/

theorem split_cons_of_ne {c : Char} (h : c ≠ sep) (s : List Char) :
    split sep (c :: s) = consHead c (split sep s) := by
  rw [split, if_neg h]

theorem split_ne_nil (s : List Char) : split sep s ≠ [] := by
  cases s with
  | nil => nofun
  | cons c s =>
    rw [split]
    split
    · nofun
    · cases Text.split sep s with
      | nil => nofun
      | cons piece pieces => nofun

/-- A piece in front of a separator is cut off. -/
theorem split_append_sep {piece : List Char} (h : sep ∉ piece) (s : List Char) :
    split sep (piece ++ sep :: s) = piece :: split sep s := by
  induction piece with
  | nil =>
    show split sep (sep :: s) = _
    rw [split, if_pos rfl]
  | cons c piece ih =>
    rw [List.mem_cons, not_or] at h
    rw [List.cons_append, split_cons_of_ne (Ne.symm h.1), ih h.2]
    rfl

/-- A text without separator is one piece. -/
theorem split_of_notMem {s : List Char} (h : sep ∉ s) : split sep s = [s] := by
  induction s with
  | nil => rfl
  | cons c s ih =>
    rw [List.mem_cons, not_or] at h
    rw [split_cons_of_ne (Ne.symm h.1), ih h.2]
    rfl

theorem exists_mem_consHead {c d : Char} {pieces : List (List Char)}
    (h : c = d ∨ ∃ piece ∈ pieces, c ∈ piece) : ∃ piece ∈ consHead d pieces, c ∈ piece := by
  cases pieces with
  | nil =>
    rcases h with rfl | ⟨_, hpiece, -⟩
    · exact ⟨[c], List.mem_cons_self, List.mem_cons_self⟩
    · cases hpiece
  | cons first pieces =>
    rcases h with rfl | ⟨piece, hpiece, hc⟩
    · exact ⟨c :: first, List.mem_cons_self, List.mem_cons_self⟩
    · rcases List.mem_cons.1 hpiece with rfl | hrest
      · exact ⟨d :: piece, List.mem_cons_self, List.mem_cons_of_mem d hc⟩
      · exact ⟨piece, List.mem_cons_of_mem _ hrest, hc⟩

/-- Every character but the separator is in some piece. -/
theorem exists_mem_split {c : Char} {s : List Char} (h : c ∈ s) (hc : c ≠ sep) :
    ∃ piece ∈ split sep s, c ∈ piece := by
  induction s with
  | nil => cases h
  | cons d s ih =>
    by_cases hd : d = sep
    · have hrest : c ∈ s := (List.mem_cons.1 h).resolve_left fun heq => hc (heq.trans hd)
      obtain ⟨piece, hpiece, hmem⟩ := ih hrest
      rw [split, if_pos hd]
      exact ⟨piece, List.mem_cons_of_mem _ hpiece, hmem⟩
    · rw [split_cons_of_ne hd]
      exact exists_mem_consHead ((List.mem_cons.1 h).imp id ih)

/-! ## Joining -/

theorem join_cons {pieces : List (List Char)} (h : pieces ≠ []) (piece sep : List Char) :
    join sep (piece :: pieces) = piece ++ sep ++ join sep pieces := by
  cases pieces with
  | nil => exact absurd rfl h
  | cons next pieces => rfl

theorem join_consHead (c : Char) {pieces : List (List Char)} (h : pieces ≠ [])
    (sep : List Char) : join sep (consHead c pieces) = c :: join sep pieces := by
  cases pieces with
  | nil => exact absurd rfl h
  | cons piece pieces =>
    cases pieces with
    | nil => rfl
    | cons next pieces => rfl

/-- A blank after the separator may as well belong to the next piece. -/
theorem join_blank (sep : Char) (piece : List Char) (pieces : List (List Char)) :
    join [sep, ' '] (piece :: pieces) = join [sep] (piece :: pieces.map (' ' :: ·)) := by
  induction pieces generalizing piece with
  | nil => rfl
  | cons next pieces ih =>
    have hblank : join [sep] ((' ' :: next) :: pieces.map (' ' :: ·)) =
        ' ' :: join [sep] (next :: pieces.map (' ' :: ·)) :=
      join_consHead ' ' (List.cons_ne_nil next _) [sep]
    rw [join_cons (List.cons_ne_nil next pieces), ih next, List.map_cons,
      join_cons (List.cons_ne_nil _ _), hblank, List.append_assoc, List.append_assoc]
    rfl

/-- A piece is written behind the others with a separator in front of it. -/
theorem join_concat {pieces : List (List Char)} (h : pieces ≠ []) (piece sep : List Char) :
    join sep (pieces ++ [piece]) = join sep pieces ++ sep ++ piece := by
  induction pieces with
  | nil => exact absurd rfl h
  | cons first pieces ih =>
    by_cases hlast : pieces = []
    · subst hlast
      rfl
    · rw [List.cons_append, join_cons (by simp), ih hlast, join_cons hlast]
      simp only [List.append_assoc]

/-- A joined text consists of its pieces and what was written between them. -/
theorem mem_join {c : Char} {sep : List Char} {pieces : List (List Char)}
    (h : c ∈ join sep pieces) : c ∈ sep ∨ ∃ piece ∈ pieces, c ∈ piece := by
  induction pieces with
  | nil => cases h
  | cons piece pieces ih =>
    by_cases hlast : pieces = []
    · subst hlast
      exact .inr ⟨piece, List.mem_cons_self, h⟩
    · rw [join_cons hlast, List.append_assoc, List.mem_append, List.mem_append] at h
      rcases h with hpiece | hsep | hrest
      · exact .inr ⟨piece, List.mem_cons_self, hpiece⟩
      · exact .inl hsep
      · refine (ih hrest).imp_right ?_
        rintro ⟨next, hnext, hc⟩
        exact ⟨next, List.mem_cons_of_mem piece hnext, hc⟩

/-- The pieces of a text are joined to the text. -/
theorem join_split (s : List Char) : join [sep] (split sep s) = s := by
  induction s with
  | nil => rfl
  | cons c s ih =>
    by_cases hc : c = sep
    · rw [split, if_pos hc, join_cons (split_ne_nil s), ih, hc]
      rfl
    · rw [split_cons_of_ne hc, join_consHead c (split_ne_nil s), ih]

/-- Pieces without separators are found again after they were joined. -/
theorem split_join {pieces : List (List Char)} (hne : pieces ≠ [])
    (h : ∀ piece ∈ pieces, sep ∉ piece) : split sep (join [sep] pieces) = pieces := by
  induction pieces with
  | nil => exact absurd rfl hne
  | cons piece pieces ih =>
    rw [List.forall_mem_cons] at h
    by_cases hlast : pieces = []
    · subst hlast
      exact split_of_notMem h.1
    · rw [join_cons hlast, List.append_assoc]
      show split sep (piece ++ sep :: join [sep] pieces) = _
      rw [split_append_sep h.1, ih hlast h.2]

/-- If no piece is empty, nothing is lost when empty pieces are skipped. -/
theorem filter_split_join {pieces : List (List Char)}
    (h : ∀ piece ∈ pieces, piece ≠ [] ∧ sep ∉ piece) :
    (split sep (join [sep] pieces)).filter (fun piece => !piece.isEmpty) = pieces := by
  by_cases hne : pieces = []
  · subst hne
    rfl
  · rw [split_join hne fun piece hmem => (h piece hmem).2, List.filter_eq_self]
    intro piece hmem
    simpa using (h piece hmem).1

/-- Two texts without separators, with another sign between them, are such a piece. -/
theorem pair_isPiece {mid : Char} (hmid : mid ≠ sep) {name value : List Char} (hname : sep ∉ name)
    (hvalue : sep ∉ value) : name ++ mid :: value ≠ [] ∧ sep ∉ name ++ mid :: value := by
  refine ⟨by simp, fun hmem => ?_⟩
  rcases List.mem_append.1 hmem with hleft | hright
  · exact hname hleft
  · rcases List.mem_cons.1 hright with heq | hrest
    · exact hmid heq.symm
    · exact hvalue hrest

/-- The joined text determines the pieces, if no piece is empty or contains a separator. -/
theorem join_injective {pieces pieces' : List (List Char)}
    (h : ∀ piece ∈ pieces, piece ≠ [] ∧ sep ∉ piece)
    (h' : ∀ piece ∈ pieces', piece ≠ [] ∧ sep ∉ piece)
    (heq : join [sep] pieces = join [sep] pieces') : pieces = pieces' := by
  rw [← filter_split_join h, heq, filter_split_join h']

/-! ## What the pieces are -/

theorem length_consHead (c : Char) {pieces : List (List Char)} (h : pieces ≠ []) :
    (consHead c pieces).length = pieces.length := by
  cases pieces with
  | nil => exact absurd rfl h
  | cons piece pieces => rfl

/-- There is one piece more than there are separators. -/
theorem length_split (s : List Char) : (split sep s).length = s.count sep + 1 := by
  induction s with
  | nil => rfl
  | cons c s ih =>
    by_cases hc : c = sep
    · rw [split, if_pos hc, List.length_cons, ih, hc, List.count_cons_self]
    · rw [split_cons_of_ne hc, length_consHead c (split_ne_nil s), ih, List.count_cons_of_ne hc]

theorem notMem_of_mem_consHead {c : Char} (hc : c ≠ sep) {pieces : List (List Char)}
    (h : ∀ piece ∈ pieces, sep ∉ piece) {piece : List Char} (hpiece : piece ∈ consHead c pieces) :
    sep ∉ piece := by
  cases pieces with
  | nil =>
    rw [List.mem_singleton.1 hpiece]
    exact fun hmem => hc (List.mem_singleton.1 hmem).symm
  | cons first pieces =>
    rcases List.mem_cons.1 hpiece with rfl | hrest
    · intro hmem
      rcases List.mem_cons.1 hmem with hhead | htail
      · exact hc hhead.symm
      · exact h first List.mem_cons_self htail
    · exact h piece (List.mem_cons_of_mem first hrest)

/-- No piece contains a separator. -/
theorem notMem_of_mem_split {s piece : List Char} (h : piece ∈ split sep s) : sep ∉ piece := by
  induction s generalizing piece with
  | nil =>
    rw [List.mem_singleton.1 h]
    exact List.not_mem_nil
  | cons c s ih =>
    by_cases hc : c = sep
    · rw [split, if_pos hc] at h
      rcases List.mem_cons.1 h with rfl | hrest
      · exact List.not_mem_nil
      · exact ih hrest
    · rw [split_cons_of_ne hc] at h
      exact notMem_of_mem_consHead hc (fun _ hmem => ih hmem) h

/-- Two pieces are what stands before and after the only separator. -/
theorem split_eq_pair_iff {s before after : List Char} :
    split sep s = [before, after] ↔
      s = before ++ sep :: after ∧ sep ∉ before ∧ sep ∉ after := by
  constructor
  · intro h
    have hjoined : join [sep] (split sep s) = s := join_split s
    rw [h] at hjoined
    rw [join_cons (List.cons_ne_nil after []), List.append_assoc] at hjoined
    have hpieces : ∀ piece ∈ [before, after], sep ∉ piece :=
      fun piece hmem => notMem_of_mem_split (h ▸ hmem)
    exact ⟨hjoined.symm, hpieces before List.mem_cons_self,
      hpieces after (List.mem_cons_of_mem before List.mem_cons_self)⟩
  · rintro ⟨rfl, hbefore, hafter⟩
    rw [split_append_sep hbefore, split_of_notMem hafter]

/-! ## The beginning -/

/-- What is known to be at the beginning is taken off. -/
theorem dropStart?_append (start rest : List Char) :
    dropStart? start (start ++ rest) = some rest := by
  induction start with
  | nil => rfl
  | cons c start ih => rw [List.cons_append, dropStart?, if_pos rfl, ih]

/-! ## The first separator -/

/-- What stands before the first separator, and what stands after it. -/
theorem splitOnce_append {before : List Char} (h : sep ∉ before) (rest : List Char) :
    splitOnce sep (before ++ sep :: rest) = some (before, rest) := by
  induction before with
  | nil =>
    show splitOnce sep (sep :: rest) = _
    rw [splitOnce, if_pos rfl]
  | cons c before ih =>
    rw [List.mem_cons, not_or] at h
    rw [List.cons_append, splitOnce, if_neg (Ne.symm h.1), ih h.2]
    rfl

/-- A text without separator has no such parts. -/
theorem splitOnce_of_notMem {s : List Char} (h : sep ∉ s) : splitOnce sep s = none := by
  induction s with
  | nil => rfl
  | cons c s ih =>
    rw [List.mem_cons, not_or] at h
    rw [splitOnce, if_neg (Ne.symm h.1), ih h.2, Option.map_none]

/-! ## What stands beside one separator -/

section Beside

variable {x x' rest rest' : List Char}

/-- A text has one beginning without separator in front of a separator. -/
theorem append_sep_inj (h : sep ∉ x) (h' : sep ∉ x') :
    x ++ sep :: rest = x' ++ sep :: rest' ↔ x = x' ∧ rest = rest' := by
  constructor
  · intro heq
    have hsplit := congrArg (splitOnce sep) heq
    rw [splitOnce_append h, splitOnce_append h'] at hsplit
    exact Prod.mk.inj (Option.some.inj hsplit)
  · rintro ⟨rfl, rfl⟩
    rfl

/-- A text has one end without separator behind a separator. -/
theorem append_sep_inj_right (h : sep ∉ x) (h' : sep ∉ x') :
    rest ++ sep :: x = rest' ++ sep :: x' ↔ rest = rest' ∧ x = x' := by
  rw [← List.reverse_inj, List.reverse_append, List.reverse_append, List.reverse_cons,
    List.reverse_cons, List.append_assoc, List.append_assoc, List.singleton_append,
    List.singleton_append, append_sep_inj (by rwa [List.mem_reverse]) (by rwa [List.mem_reverse]),
    List.reverse_inj, List.reverse_inj, and_comm]

end Beside

end Gatehouse.Text
