import Gatehouse.Proofs.Text.Split
import Gatehouse.Proofs.Text.Utf8
import Mathlib.Algebra.Group.Nat.Even

/-!
# Where a text is cut

`splitOutsideQuotes` builds its pieces character by character. To cut a text without copying it,
one goes through its characters with their places in its bytes and keeps where the present piece
begins and whether it is inside quotes; at a separator outside quotes the piece ends, and the next
one begins behind the separator. A piece is then a slice of the bytes. Between two places there is
a slice only if a character begins at both of them; at other places cutting fails.

- `slice?`: the text between two places, if there is one.
- `Cutting` and `Cutting.step`: what is kept, and what one character changes of it.
- `Cutting.Reads`: what is kept after the beginning of a text, told by its pieces. One character
  preserves it (`Reads.quote`, `Reads.cut`, `Reads.char`), so it holds after a whole text
  (`exists_reads`).
- `mapM_slice?_spansFrom`: the slices of a text at the places of its pieces are the pieces.
- `splitOutsideQuotes_cuts`: the text is cut at the separators with an even number of quotes
  before them and nowhere else, always between characters, and the slices are the pieces.
-/

namespace Gatehouse.Text

variable {sep : Char}

/-! ## Slices -/

/-- How many bytes a text has. -/
def size (s : List Char) : Nat :=
  (Utf8.encode s).length

/-- Whether a character begins at a place, or the bytes end there. A byte from 0x80 to 0xBF goes
on with a character. -/
def isBoundary (bytes : Bytes) (i : Nat) : Bool :=
  match bytes[i]? with
  | some b => i == 0 || b.toNat < 0x80 || 0xC0 ≤ b.toNat
  | none => i == bytes.length

/-- The text between two places, unless one of them is inside a character or behind the end, or
they are the wrong way round. -/
def slice? (s : List Char) (span : Nat × Nat) : Option (List Char) :=
  let bytes := Utf8.encode s
  if span.1 ≤ span.2 ∧ isBoundary bytes span.1 = true ∧ isBoundary bytes span.2 = true then
    Utf8.decode? ((bytes.drop span.1).take (span.2 - span.1))
  else none

theorem size_append (s t : List Char) : size (s ++ t) = size s + size t := by
  rw [size, Utf8.encode_append, List.length_append]
  rfl

theorem size_singleton (c : Char) : size [c] = c.utf8Size := by
  rw [size, Utf8.encode, List.flatMap_singleton, String.length_utf8EncodeChar]

/-- The first byte of a character does not go on with one. -/
theorem exists_first_byte (c : Char) :
    ∃ b rest, String.utf8EncodeChar c = b :: rest ∧ (b.toNat < 0x80 ∨ 0xC0 ≤ b.toNat) := by
  by_cases h1 : c.toNat ≤ 0x7F
  · refine ⟨_, _, Utf8.encodeChar_one h1, .inl ?_⟩
    rw [Utf8.toNat_ofNat_of_lt (by omega)]
    omega
  · by_cases h2 : c.toNat ≤ 0x7FF
    · refine ⟨_, _, Utf8.encodeChar_two (by omega) h2, .inr ?_⟩
      rw [Utf8.toNat_ofNat_of_lt (by omega)]
      omega
    · by_cases h3 : c.toNat ≤ 0xFFFF
      · refine ⟨_, _, Utf8.encodeChar_three (by omega) h3, .inr ?_⟩
        rw [Utf8.toNat_ofNat_of_lt (by omega)]
        omega
      · refine ⟨_, _, Utf8.encodeChar_four (by omega), .inr ?_⟩
        rw [Utf8.toNat_ofNat_of_lt (by omega)]
        omega

/-- Behind the beginning of a text, a character begins or the text ends. -/
theorem isBoundary_size (s t : List Char) : isBoundary (Utf8.encode (s ++ t)) (size s) = true := by
  rw [Utf8.encode_append, isBoundary, size, List.getElem?_append_right (Nat.le_refl _),
    Nat.sub_self]
  cases t with
  | nil => simp [Utf8.encode]
  | cons c t =>
    obtain ⟨b, rest, hc, hb⟩ := exists_first_byte c
    rw [Utf8.encode, Utf8.encode, List.flatMap_cons, hc]
    rcases hb with hb | hb
    · simp [hb]
    · simp [hb]

/-- What stands in the middle of a text is the slice between its two ends. -/
theorem slice?_middle (s t u : List Char) :
    slice? (s ++ (t ++ u)) (size s, size s + size t) = some t := by
  have hstart : isBoundary (Utf8.encode (s ++ (t ++ u))) (size s) = true :=
    isBoundary_size s (t ++ u)
  have hend : isBoundary (Utf8.encode (s ++ (t ++ u))) (size s + size t) = true := by
    rw [← List.append_assoc, ← size_append]
    exact isBoundary_size (s ++ t) u
  rw [slice?, if_pos ⟨Nat.le_add_right _ _, hstart, hend⟩, Nat.add_sub_cancel_left]
  show Utf8.decode? (((Utf8.encode (s ++ (t ++ u))).drop (Utf8.encode s).length).take
    (Utf8.encode t).length) = some t
  rw [Utf8.encode_append, List.drop_left, Utf8.encode_append, List.take_left]
  exact Utf8.decode?_encode t

/-! ## Cutting -/

/-- What is kept while the characters of a text go by: the two ends of each piece so far, where
the present piece begins, and whether an odd number of quotes came by. -/
structure Cutting where
  spans : List (Nat × Nat)
  start : Nat
  quoted : Bool
deriving DecidableEq, Repr

/-- What a character at a place changes. -/
def Cutting.step (sep : Char) (kept : Cutting) (place : Nat × Char) : Cutting :=
  if place.2 = '"' then { kept with quoted := !kept.quoted }
  else if place.2 = sep ∧ kept.quoted = false then
    { kept with
      spans := kept.spans ++ [(kept.start, place.1)]
      start := place.1 + place.2.utf8Size }
  else kept

/-- The characters of a text with their places, counted from a place on. -/
def places : Nat → List Char → List (Nat × Char)
  | _, [] => []
  | i, c :: s => (i, c) :: places (i + c.utf8Size) s

/-- What is kept after all characters. -/
def cutting (sep : Char) (s : List Char) : Cutting :=
  (places 0 s).foldl (Cutting.step sep) ⟨[], 0, false⟩

/-- The two ends of each piece. The last piece reaches to the end of the text. -/
def spans (sep : Char) (s : List Char) : List (Nat × Nat) :=
  (cutting sep s).spans ++ [((cutting sep s).start, size s)]

/-- Where pieces end before the end of the text. -/
def cuts (sep : Char) (s : List Char) : List Nat :=
  (spans sep s).dropLast.map Prod.snd

theorem cuts_eq (s : List Char) : cuts sep s = (cutting sep s).spans.map Prod.snd := by
  rw [cuts, spans, List.dropLast_concat]

/-! ## Pieces and their places -/

/-- Pieces with a separator behind each. -/
def closed (sep : Char) (pieces : List (List Char)) : List Char :=
  pieces.flatMap (· ++ [sep])

/-- The two ends of each piece, if the pieces are written from a place on with separators between
them. -/
def spansFrom (sep : Char) : Nat → List (List Char) → List (Nat × Nat)
  | _, [] => []
  | i, piece :: pieces =>
    (i, i + size piece) :: spansFrom sep (i + size piece + sep.utf8Size) pieces

theorem closed_concat (pieces : List (List Char)) (piece : List Char) :
    closed sep (pieces ++ [piece]) = closed sep pieces ++ piece ++ [sep] := by
  rw [closed, List.flatMap_append, List.flatMap_singleton, List.append_assoc]
  rfl

theorem join_closed (pieces : List (List Char)) (piece : List Char) :
    join [sep] (pieces ++ [piece]) = closed sep pieces ++ piece := by
  induction pieces with
  | nil => rfl
  | cons first pieces ih =>
    rw [List.cons_append, join_cons (by simp), ih, closed, closed, List.flatMap_cons]
    simp only [List.append_assoc]

theorem spansFrom_concat (i : Nat) (pieces : List (List Char)) (piece : List Char) :
    spansFrom sep i (pieces ++ [piece]) = spansFrom sep i pieces ++
      [(i + size (closed sep pieces), i + size (closed sep pieces) + size piece)] := by
  induction pieces generalizing i with
  | nil => rfl
  | cons first pieces ih =>
    have hsize : size (closed sep (first :: pieces)) =
        size first + sep.utf8Size + size (closed sep pieces) := by
      rw [closed, List.flatMap_cons, size_append, size_append, size_singleton]
      rfl
    rw [List.cons_append, spansFrom, ih, hsize, spansFrom, List.cons_append]
    simp only [Nat.add_assoc]

/-- The slices of a text at the places of its pieces are the pieces. -/
theorem mapM_slice?_spansFrom (before : List Char) {pieces : List (List Char)}
    (hne : pieces ≠ []) :
    (spansFrom sep (size before) pieces).mapM (slice? (before ++ join [sep] pieces)) =
      some pieces := by
  induction pieces generalizing before with
  | nil => exact absurd rfl hne
  | cons piece pieces ih =>
    rw [spansFrom, List.mapM_cons]
    by_cases hlast : pieces = []
    · subst hlast
      have hpiece := slice?_middle before piece []
      rw [List.append_nil] at hpiece
      show (slice? (before ++ piece) _).bind _ = _
      rw [hpiece]
      rfl
    · have hrest := ih (before ++ piece ++ [sep]) hlast
      rw [size_append, size_append, size_singleton, List.append_assoc, List.append_assoc]
        at hrest
      rw [join_cons hlast, List.append_assoc]
      show (slice? (before ++ (piece ++ ([sep] ++ join [sep] pieces))) _).bind _ = _
      rw [slice?_middle, Option.bind_some, hrest]
      rfl

/-- Each piece ends before the next one. -/
theorem pairwise_spansFrom (i : Nat) (pieces : List (List Char)) :
    ((spansFrom sep i pieces).map Prod.snd).Pairwise (· < ·) ∧
      ∀ j ∈ (spansFrom sep i pieces).map Prod.snd, i ≤ j := by
  induction pieces generalizing i with
  | nil => exact ⟨.nil, nofun⟩
  | cons piece pieces ih =>
    obtain ⟨hpairwise, hle⟩ := ih (i + size piece + sep.utf8Size)
    have hwidth : 0 < sep.utf8Size := sep.utf8Size_pos
    rw [spansFrom, List.map_cons, List.pairwise_cons]
    refine ⟨⟨fun j hj => ?_, hpairwise⟩, fun j hj => ?_⟩
    · have := hle j hj
      omega
    · rcases List.mem_cons.1 hj with rfl | hrest
      · exact Nat.le_add_right i (size piece)
      · have := hle j hrest
        omega

/-- Each piece begins behind the separator at which the one before it ends. -/
theorem map_fst_spansFrom (i : Nat) (pieces : List (List Char)) (piece : List Char) :
    (spansFrom sep i (pieces ++ [piece])).map Prod.fst =
      i :: ((spansFrom sep i pieces).map Prod.snd).map (· + sep.utf8Size) := by
  induction pieces generalizing i with
  | nil => rfl
  | cons first pieces ih =>
    rw [List.cons_append, spansFrom, List.map_cons, ih, spansFrom, List.map_cons, List.map_cons]

/-- Pieces with an even number of quotes do not change whether a place is inside quotes. -/
theorem even_count_closed (hsep : sep ≠ '"') {pieces : List (List Char)}
    (h : ∀ piece ∈ pieces, Even (piece.count '"')) (s : List Char) :
    Even ((closed sep pieces ++ s).count '"') ↔ Even (s.count '"') := by
  induction pieces with
  | nil => exact Iff.rfl
  | cons piece pieces ih =>
    rw [List.forall_mem_cons] at h
    have hone : [sep].count '"' = 0 := List.count_eq_zero.2 (by simpa using hsep.symm)
    rw [← ih h.2, closed, List.flatMap_cons, List.append_assoc, List.append_assoc,
      List.count_append, List.count_append, hone, Nat.zero_add, Nat.even_add]
    exact iff_of_eq (by rw [eq_true h.1, true_iff]; rfl)

/-! ## What is kept after the beginning of a text -/

/-- Puts a text in front of the first piece. -/
def prepend (s : List Char) (pieces : List (List Char)) : List (List Char) :=
  s.foldr consHead pieces

theorem prepend_concat (s : List Char) (c : Char) (pieces : List (List Char)) :
    prepend (s ++ [c]) pieces = prepend s (consHead c pieces) := by
  rw [prepend, List.foldr_append]
  rfl

theorem prepend_nil_cons (s : List Char) (pieces : List (List Char)) :
    prepend s ([] :: pieces) = s :: pieces := by
  induction s with
  | nil => rfl
  | cons c s ih =>
    show consHead c (prepend s ([] :: pieces)) = _
    rw [ih]
    rfl

/-- The place of a separator with an even number of quotes before it. -/
def IsCut (sep : Char) (s : List Char) (i : Nat) : Prop :=
  ∃ before after, s = before ++ sep :: after ∧ size before = i ∧ Even (before.count '"')

/-- With one more character there is one more such place, if the character is such a separator. -/
theorem isCut_concat_iff (s : List Char) (c : Char) (i : Nat) :
    IsCut sep (s ++ [c]) i ↔ IsCut sep s i ∨ c = sep ∧ size s = i ∧ Even (s.count '"') := by
  constructor
  · rintro ⟨before, after, hs, hsize, heven⟩
    rcases List.eq_nil_or_concat after with rfl | ⟨after, d, rfl⟩
    · obtain ⟨rfl, hc⟩ := List.append_inj' hs rfl
      exact .inr ⟨(List.cons.inj hc).1, hsize, heven⟩
    · rw [List.concat_eq_append, ← List.cons_append, ← List.append_assoc] at hs
      exact .inl ⟨before, after, (List.append_inj' hs rfl).1, hsize, heven⟩
  · rintro (⟨before, after, rfl, hsize, heven⟩ | ⟨rfl, hsize, heven⟩)
    · exact ⟨before, after ++ [c], by simp, hsize, heven⟩
    · exact ⟨s, [], rfl, hsize, heven⟩

/-- What is kept after the beginning of a text, which consists of some pieces that have ended and
of the present one. -/
structure Cutting.Reads (sep : Char) (before : List Char) (kept : Cutting)
    (pieces : List (List Char)) (present : List Char) : Prop where
  before_eq : before = closed sep pieces ++ present
  spans_eq : kept.spans = spansFrom sep 0 pieces
  start_eq : kept.start = size (closed sep pieces)
  even : ∀ piece ∈ pieces, Even (piece.count '"')
  quoted_iff : kept.quoted = false ↔ Even (present.count '"')
  split_eq : ∀ rest, splitOutsideQuotes sep (before ++ rest) =
    pieces ++ prepend present (splitQuotedFrom sep kept.quoted rest)
  mem_iff : ∀ i, i ∈ kept.spans.map Prod.snd ↔ IsCut sep before i

namespace Cutting.Reads

variable {before present : List Char} {kept : Cutting} {pieces : List (List Char)} {c : Char}

theorem begin : Reads sep [] ⟨[], 0, false⟩ [] [] where
  before_eq := rfl
  spans_eq := rfl
  start_eq := rfl
  even := nofun
  quoted_iff := iff_of_true rfl ⟨0, rfl⟩
  split_eq := fun _ => rfl
  mem_iff := fun i => iff_of_false List.not_mem_nil (by rintro ⟨before, after, hs, -⟩; simp at hs)

/-- The number of quotes in the present piece tells about all that came by. -/
theorem quoted_iff_before (hsep : sep ≠ '"') (h : Reads sep before kept pieces present) :
    kept.quoted = false ↔ Even (before.count '"') := by
  rw [h.quoted_iff, h.before_eq, even_count_closed hsep h.even]

/-- A quote belongs to the present piece. -/
theorem quote (hsep : sep ≠ '"') (h : Reads sep before kept pieces present) :
    Reads sep (before ++ ['"']) { kept with quoted := !kept.quoted } pieces
      (present ++ ['"']) where
  before_eq := by rw [h.before_eq, List.append_assoc]
  spans_eq := h.spans_eq
  start_eq := h.start_eq
  even := h.even
  quoted_iff := by
    rw [List.count_append, show ['"'].count '"' = 1 from rfl, Nat.even_add_one, ← h.quoted_iff]
    exact iff_of_eq ((Bool.not_eq_false' _).trans (Bool.not_eq_false _).symm)
  split_eq := fun rest => by
    rw [List.append_assoc, h.split_eq, List.singleton_append, splitQuotedFrom, if_pos rfl,
      prepend_concat]
  mem_iff := fun i => by
    rw [h.mem_iff, isCut_concat_iff, or_iff_left fun hcut => hsep hcut.1.symm]

/-- A separator outside quotes ends the present piece. -/
theorem cut (hsep : sep ≠ '"') (h : Reads sep before kept pieces present)
    (hquoted : kept.quoted = false) :
    Reads sep (before ++ [sep])
      { kept with
        spans := kept.spans ++ [(kept.start, size before)]
        start := size before + sep.utf8Size }
      (pieces ++ [present]) [] where
  before_eq := by rw [h.before_eq, closed_concat, List.append_nil]
  spans_eq := by
    rw [h.spans_eq, h.start_eq, h.before_eq, spansFrom_concat, size_append, Nat.zero_add]
  start_eq := by rw [closed_concat, ← h.before_eq, size_append, size_singleton]
  even := fun piece hpiece => by
    rcases List.mem_append.1 hpiece with hold | hlast
    · exact h.even piece hold
    · rw [List.mem_singleton.1 hlast]
      exact h.quoted_iff.1 hquoted
  quoted_iff := iff_of_true hquoted ⟨0, rfl⟩
  split_eq := fun rest => by
    rw [List.append_assoc, h.split_eq, List.singleton_append, splitQuotedFrom, if_neg hsep,
      if_pos ⟨rfl, hquoted⟩, prepend_nil_cons, List.append_assoc]
    rfl
  mem_iff := fun i => by
    have heven := (h.quoted_iff_before hsep).1 hquoted
    rw [List.map_append, List.mem_append, h.mem_iff, isCut_concat_iff, List.map_singleton,
      List.mem_singleton]
    exact or_congr_right ⟨fun hi => ⟨rfl, hi.symm, heven⟩, fun hcut => hcut.2.1.symm⟩

/-- Any other character belongs to the present piece. -/
theorem char (hsep : sep ≠ '"') (h : Reads sep before kept pieces present) (hquote : c ≠ '"')
    (hcut : ¬(c = sep ∧ kept.quoted = false)) :
    Reads sep (before ++ [c]) kept pieces (present ++ [c]) where
  before_eq := by rw [h.before_eq, List.append_assoc]
  spans_eq := h.spans_eq
  start_eq := h.start_eq
  even := h.even
  quoted_iff := by
    have hone : [c].count '"' = 0 := List.count_eq_zero.2 (by simpa using hquote.symm)
    rw [List.count_append, hone, Nat.add_zero, h.quoted_iff]
  split_eq := fun rest => by
    rw [List.append_assoc, h.split_eq, List.singleton_append, splitQuotedFrom, if_neg hquote,
      if_neg hcut, prepend_concat]
  mem_iff := fun i => by
    rw [h.mem_iff, isCut_concat_iff, or_iff_left]
    rintro ⟨hc, -, heven⟩
    exact hcut ⟨hc, (h.quoted_iff_before hsep).2 heven⟩

/-- One more character, whatever it is. -/
theorem exists_step (hsep : sep ≠ '"') (h : Reads sep before kept pieces present) (c : Char) :
    ∃ pieces present, Reads sep (before ++ [c]) (kept.step sep (size before, c)) pieces
      present := by
  unfold Cutting.step
  split
  · next hquote =>
    cases hquote
    exact ⟨_, _, h.quote hsep⟩
  · next hquote =>
    split
    · next hcut =>
      cases hcut.1
      exact ⟨_, _, h.cut hsep hcut.2⟩
    · next hcut => exact ⟨_, _, h.char hsep hquote hcut⟩

/-- All characters that are left. -/
theorem exists_foldl (hsep : sep ≠ '"') (h : Reads sep before kept pieces present)
    (rest : List Char) :
    ∃ pieces present, Reads sep (before ++ rest)
      ((places (size before) rest).foldl (Cutting.step sep) kept) pieces present := by
  induction rest generalizing before kept pieces present with
  | nil => exact ⟨pieces, present, by rwa [List.append_nil]⟩
  | cons c rest ih =>
    obtain ⟨_, _, hstep⟩ := h.exists_step hsep c
    have hrest := ih hstep
    rw [size_append, size_singleton, List.append_assoc] at hrest
    exact hrest

end Cutting.Reads

/-- After the whole text, the present piece is the last one. -/
theorem exists_reads (hsep : sep ≠ '"') (s : List Char) :
    ∃ pieces present, (cutting sep s).Reads sep s pieces present :=
  Cutting.Reads.begin.exists_foldl hsep s

/-! ## The whole text -/

theorem Cutting.Reads.splitOutsideQuotes_eq {s present : List Char} {kept : Cutting}
    {pieces : List (List Char)} (h : kept.Reads sep s pieces present) :
    splitOutsideQuotes sep s = pieces ++ [present] := by
  have hsplit := h.split_eq []
  rwa [List.append_nil, splitQuotedFrom, prepend_nil_cons] at hsplit

/-- The places of the pieces. -/
theorem spans_eq (hsep : sep ≠ '"') (s : List Char) :
    spans sep s = spansFrom sep 0 (splitOutsideQuotes sep s) := by
  obtain ⟨pieces, present, h⟩ := exists_reads hsep s
  rw [h.splitOutsideQuotes_eq, spansFrom_concat, spans, h.spans_eq, h.start_eq, Nat.zero_add,
    ← size_append, ← h.before_eq]

/-- The pieces of a text are joined to the text. -/
theorem join_splitOutsideQuotes (hsep : sep ≠ '"') (s : List Char) :
    join [sep] (splitOutsideQuotes sep s) = s := by
  obtain ⟨pieces, present, h⟩ := exists_reads hsep s
  rw [h.splitOutsideQuotes_eq, join_closed, ← h.before_eq]

/-- The slices at the places that were kept are the pieces. -/
theorem mapM_slice?_spans (hsep : sep ≠ '"') (s : List Char) :
    (spans sep s).mapM (slice? s) = some (splitOutsideQuotes sep s) := by
  have hne : splitOutsideQuotes sep s ≠ [] := by
    obtain ⟨pieces, present, h⟩ := exists_reads hsep s
    rw [h.splitOutsideQuotes_eq]
    simp
  have hslices : (spansFrom sep 0 _).mapM (slice? ([] ++ join [sep] _)) = some _ :=
    mapM_slice?_spansFrom [] hne
  rw [List.nil_append, join_splitOutsideQuotes hsep] at hslices
  rw [spans_eq hsep]
  exact hslices

theorem mem_cuts_iff (hsep : sep ≠ '"') (s : List Char) (i : Nat) :
    i ∈ cuts sep s ↔ IsCut sep s i := by
  obtain ⟨pieces, present, h⟩ := exists_reads hsep s
  rw [cuts_eq, h.mem_iff]

theorem pairwise_cuts (hsep : sep ≠ '"') (s : List Char) : (cuts sep s).Pairwise (· < ·) := by
  obtain ⟨pieces, present, h⟩ := exists_reads hsep s
  rw [cuts_eq, h.spans_eq]
  exact (pairwise_spansFrom 0 pieces).1

theorem map_fst_spans (hsep : sep ≠ '"') (s : List Char) :
    (spans sep s).map Prod.fst = 0 :: (cuts sep s).map (· + sep.utf8Size) := by
  obtain ⟨pieces, present, h⟩ := exists_reads hsep s
  rw [spans_eq hsep, cuts_eq, h.splitOutsideQuotes_eq, h.spans_eq, map_fst_spansFrom]

/-- Every piece before the last has an even number of quotes. -/
theorem even_of_mem_dropLast (hsep : sep ≠ '"') {s piece : List Char}
    (h : piece ∈ (splitOutsideQuotes sep s).dropLast) : Even (piece.count '"') := by
  obtain ⟨pieces, present, hreads⟩ := exists_reads hsep s
  rw [hreads.splitOutsideQuotes_eq, List.dropLast_concat] at h
  exact hreads.even piece h

/-- A separator begins and ends between characters. -/
theorem IsCut.isBoundary {s : List Char} {i : Nat} (h : IsCut sep s i) :
    isBoundary (Utf8.encode s) i = true ∧
      isBoundary (Utf8.encode s) (i + sep.utf8Size) = true := by
  obtain ⟨before, after, rfl, rfl, -⟩ := h
  refine ⟨isBoundary_size before (sep :: after), ?_⟩
  have hend := isBoundary_size (before ++ [sep]) after
  rwa [size_append, size_singleton, List.append_assoc] at hend

/-- The pieces are joined to the text. The text is cut at the separators with an even number of
quotes before them, from left to right, and each piece begins behind the cut before it; so every
piece but the last has an even number of quotes. Every cut is between characters, and so is the
place behind its separator: the slices exist, and they are the pieces. -/
theorem splitOutsideQuotes_cuts (hsep : sep ≠ '"') (s : List Char) :
    join [sep] (splitOutsideQuotes sep s) = s ∧
      (∀ i, i ∈ cuts sep s ↔
        ∃ before after, s = before ++ sep :: after ∧ size before = i ∧ Even (before.count '"')) ∧
      (cuts sep s).Pairwise (· < ·) ∧
      (spans sep s).map Prod.fst = 0 :: (cuts sep s).map (· + sep.utf8Size) ∧
      (∀ piece ∈ (splitOutsideQuotes sep s).dropLast, Even (piece.count '"')) ∧
      (∀ i ∈ cuts sep s, isBoundary (Utf8.encode s) i = true ∧
        isBoundary (Utf8.encode s) (i + sep.utf8Size) = true) ∧
      (spans sep s).mapM (slice? s) = some (splitOutsideQuotes sep s) :=
  ⟨join_splitOutsideQuotes hsep s, mem_cuts_iff hsep s, pairwise_cuts hsep s,
    map_fst_spans hsep s, fun _ => even_of_mem_dropLast hsep,
    fun i hi => ((mem_cuts_iff hsep s i).1 hi).isBoundary, mapM_slice?_spans hsep s⟩

/-- A separator of two bytes, between quotes, at the end, next to another one, and behind a quote
that is left open. -/
theorem splitOutsideQuotes_cuts_unbalanced :
    splitOutsideQuotes 'é' "ñ\"é\"é€éé\"ñé".toList =
        ["ñ\"é\"".toList, "€".toList, [], "\"ñé".toList] ∧
      cuts 'é' "ñ\"é\"é€éé\"ñé".toList = [6, 11, 13] ∧
      (spans 'é' "ñ\"é\"é€éé\"ñé".toList).mapM (slice? "ñ\"é\"é€éé\"ñé".toList) =
        some ["ñ\"é\"".toList, "€".toList, [], "\"ñé".toList] ∧
      slice? "ñ\"é\"é€éé\"ñé".toList (1, 6) = none := by
  have hsep : 'é' ≠ '"' := by decide
  have hcuts := splitOutsideQuotes_cuts hsep "ñ\"é\"é€éé\"ñé".toList
  have hpieces : splitOutsideQuotes 'é' "ñ\"é\"é€éé\"ñé".toList =
      ["ñ\"é\"".toList, "€".toList, [], "\"ñé".toList] := by decide +kernel
  exact ⟨hpieces, by decide +kernel, by rw [← hpieces]; exact hcuts.2.2.2.2.2.2,
    by decide +kernel⟩

end Gatehouse.Text
