import Gatehouse.Proofs.Text.Split
import Gatehouse.Text.Blank

/-!
# Quotes and blanks

In a list of fields, quotes protect the separators between them, and the blanks around a field do
not count. So a field can be written in many ways, and is read as what it says.

- `Whole`: a piece that a reader does not cut and that leaves it outside quotes. Whole pieces can
  be put together.
- `splitOutsideQuotes_join`: whole pieces are found again after they were joined.
- `unquote_quoted`, `trim_pad`: what is put around a value is taken off again.
-/

namespace Gatehouse.Text

variable {sep : Char} {s t : List Char}

/-! ## Pieces with quotes -/

/-- A piece that is not cut, for a reader who comes from inside or outside quotes, and that ends
outside of them. -/
inductive Whole (sep : Char) : Bool → List Char → Prop where
  | nil : Whole sep false []
  | quote {quoted : Bool} {s : List Char} (h : Whole sep (!quoted) s) :
    Whole sep quoted ('"' :: s)
  | char {quoted : Bool} {c : Char} {s : List Char} (hquote : c ≠ '"')
    (hsep : c = sep → quoted = true) (h : Whole sep quoted s) : Whole sep quoted (c :: s)

namespace Whole

variable {quoted : Bool}

theorem append (hs : Whole sep quoted s) (ht : Whole sep false t) :
    Whole sep quoted (s ++ t) := by
  induction hs with
  | nil => exact ht
  | quote _ ih => exact .quote ih
  | char hquote hsep _ ih => exact .char hquote hsep ih

/-- A text without quotes and separators is whole. -/
theorem plain (hquote : '"' ∉ s) (hsep : sep ∉ s) : Whole sep false s := by
  induction s with
  | nil => exact .nil
  | cons c s ih =>
    rw [List.mem_cons, not_or] at hquote hsep
    exact .char (Ne.symm hquote.1) (fun heq => absurd heq.symm hsep.1) (ih hquote.2 hsep.2)

/-- The rest of a quoted text, which may contain separators. -/
theorem closing (hquote : '"' ∉ s) : Whole sep true (s ++ ['"']) := by
  induction s with
  | nil => exact .quote .nil
  | cons c s ih =>
    rw [List.mem_cons, not_or] at hquote
    exact .char (Ne.symm hquote.1) (fun _ => rfl) (ih hquote.2)

/-- A text between quotes is whole. -/
theorem between (hquote : '"' ∉ s) : Whole sep false ('"' :: (s ++ ['"'])) :=
  .quote (closing hquote)

/-- The last piece is not cut. -/
theorem split_eq (h : Whole sep quoted s) : splitQuotedFrom sep quoted s = [s] := by
  induction h with
  | nil => rfl
  | quote _ ih => rw [splitQuotedFrom, if_pos rfl, ih, consHead]
  | char hquote hsep _ ih =>
    -- a separator in a whole piece stands between quotes
    rw [splitQuotedFrom, if_neg hquote, if_neg (fun hcut => ?_), ih, consHead]
    rw [hsep hcut.1] at hcut
    exact absurd hcut.2 (by decide)

/-- A piece in front of a separator is cut off. -/
theorem split_append (h : Whole sep quoted s) (hsep : sep ≠ '"') (rest : List Char) :
    splitQuotedFrom sep quoted (s ++ sep :: rest) = s :: splitQuotedFrom sep false rest := by
  induction h with
  | nil =>
    show splitQuotedFrom sep false (sep :: rest) = _
    rw [splitQuotedFrom, if_neg hsep, if_pos ⟨rfl, rfl⟩]
  | quote _ ih => rw [List.cons_append, splitQuotedFrom, if_pos rfl, ih, consHead]
  | char hquote hcut _ ih =>
    rw [List.cons_append, splitQuotedFrom, if_neg hquote, if_neg (fun hand => ?_), ih, consHead]
    rw [hcut hand.1] at hand
    exact absurd hand.2 (by decide)

end Whole

/-- Whole pieces are found again after they were joined. -/
theorem splitOutsideQuotes_join {pieces : List (List Char)} (hsep : sep ≠ '"')
    (hne : pieces ≠ []) (h : ∀ piece ∈ pieces, Whole sep false piece) :
    splitOutsideQuotes sep (join [sep] pieces) = pieces := by
  induction pieces with
  | nil => exact absurd rfl hne
  | cons piece pieces ih =>
    rw [List.forall_mem_cons] at h
    by_cases hlast : pieces = []
    · subst hlast
      exact h.1.split_eq
    · rw [join_cons hlast, List.append_assoc]
      exact (h.1.split_append hsep _).trans (congrArg (piece :: ·) (ih hlast h.2))

/-! ## What is put around a value -/

theorem unquote_quoted (s : List Char) : unquote ('"' :: (s ++ ['"'])) = s := by
  rw [unquote, List.getLast?_concat, if_pos rfl, List.dropLast_concat]

theorem unquote_of_notMem (h : '"' ∉ s) : unquote s = s := by
  unfold unquote
  split
  · exact absurd List.mem_cons_self h
  · rfl

theorem trimStart_append_of_blank (h : ∀ c ∈ s, isBlank c = true) :
    trimStart (s ++ t) = trimStart t :=
  List.dropWhile_append_of_pos h

theorem trimEnd_append_of_blank (h : ∀ c ∈ t, isBlank c = true) :
    trimEnd (s ++ t) = trimEnd s := by
  rw [trimEnd, List.reverse_append, List.dropWhile_append_of_pos fun c hc => h c (by simpa using hc)]
  rfl

/-- Blanks around a text do not matter. -/
theorem trim_pad {before after : List Char} (hbefore : ∀ c ∈ before, isBlank c = true)
    (hafter : ∀ c ∈ after, isBlank c = true) : trim (before ++ s ++ after) = trim s := by
  rw [trim, List.append_assoc, trimStart_append_of_blank hbefore, trimStart,
    List.dropWhile_append]
  split
  · next hnone =>
    -- a text of blanks only, after which nothing but blanks is left
    rw [List.isEmpty_iff] at hnone
    have hall : after.dropWhile isBlank = [] := by
      rw [← List.append_nil after]
      exact trimStart_append_of_blank hafter
    rw [hall, trim, trimStart, hnone]
  · exact trimEnd_append_of_blank hafter

/-- Nothing is taken off a text without blanks. -/
theorem trim_of_notBlank (h : ∀ c ∈ s, isBlank c = false) : trim s = s := by
  have hstart : ∀ t : List Char, (∀ c ∈ t, isBlank c = false) → t.dropWhile isBlank = t := by
    intro t ht
    cases t with
    | nil => rfl
    | cons c t => exact List.dropWhile_cons_of_neg (by simp [ht c List.mem_cons_self])
  rw [trim, trimStart, hstart s h, trimEnd,
    hstart s.reverse fun c hc => h c (List.mem_reverse.1 hc), List.reverse_reverse]

/-- Nothing is taken off between two characters that are not blank. -/
theorem trim_of_ends {c d : Char} (hc : isBlank c = false) (hd : isBlank d = false)
    (s : List Char) : trim (c :: (s ++ [d])) = c :: (s ++ [d]) := by
  simp [trim, trimStart, trimEnd, hc, hd]

/-- Quotes are not blank. -/
theorem trim_quoted (s : List Char) : trim ('"' :: (s ++ ['"'])) = '"' :: (s ++ ['"']) :=
  trim_of_ends (by decide) (by decide) s

end Gatehouse.Text
