import Gatehouse.Form
import Gatehouse.Proofs.Percent
import Gatehouse.Proofs.Text.Split

/-!
# Forms can be read back

A form is written piece by piece, and neither the ampersand nor the equals sign is written for a
name or a value. So every piece is found again, and every name and value in it.

- `decode_encode`: names and values are read back.
- `readPair_renderPair`: pieces are read back.
- `mem_render`: which characters a form consists of.
- `parse_render`: whole forms are read back.
-/

namespace Gatehouse.Form

/-! ## Names and values -/

theorem plain_stays : Percent.Plain stays := by
  intro c hc
  refine ⟨?_, ?_, ?_⟩
  · simp only [stays, Percent.isAlphanumeric, Bool.or_eq_true, beq_iff_eq] at hc
    rcases hc with (((halnum | rfl) | rfl) | rfl) | rfl
    · exact Percent.toNat_lt_of_isAlphanum halnum
    all_goals decide
  · rintro rfl
    exact absurd hc (by decide)
  · rintro rfl
    exact absurd hc (by decide)

/-- One character is read back as its bytes; a space was written as a plus sign. -/
theorem decodeBytes_encodeChar (c : Char) (rest : Bytes) :
    Percent.decodeBytes (Percent.plusToSpace (Utf8.encode (encodeChar c)) ++ rest) =
      String.utf8EncodeChar c ++ Percent.decodeBytes rest := by
  by_cases hc : c = ' '
  · subst hc
    exact Percent.decodeBytes_cons_of_ne (by decide) rest
  · rw [encodeChar, if_neg hc]
    exact Percent.decodeBytes_encodeChar plain_stays c rest

theorem decodeBytes_encode (s : List Char) :
    Percent.decodeBytes (Percent.plusToSpace (Utf8.encode (encode s))) = Utf8.encode s := by
  induction s with
  | nil => rfl
  | cons c s ih =>
    rw [encode, List.flatMap_cons, Utf8.encode_append, Percent.plusToSpace_append,
      decodeBytes_encodeChar, ← encode, ih]
    rfl

/-- Names and values are read back. -/
theorem decode_encode (s : List Char) : Percent.decode (encode s) = s := by
  rw [Percent.decode, decodeBytes_encode, Utf8.decodeLossy_encode]

/-- A name or value consists of characters that stay, percent and plus signs, and digits. -/
theorem mem_encode {x : Char} {s : List Char} (h : x ∈ encode s) :
    stays x = true ∨ x = '%' ∨ x = '+' := by
  obtain ⟨c, -, hx⟩ := List.mem_flatMap.1 h
  by_cases hc : c = ' '
  · rw [encodeChar, if_pos hc, List.mem_singleton] at hx
    exact .inr (.inr hx)
  · rw [encodeChar, if_neg hc] at hx
    have hmem : x ∈ Percent.encodeWith stays [c] := by
      rw [Percent.encodeWith, List.flatMap_singleton]
      exact hx
    rcases Percent.mem_encodeWith hmem with hkeep | hpercent | ⟨n, hn, rfl⟩
    · exact .inl hkeep
    · exact .inr (.inl hpercent)
    · refine .inl ?_
      rw [stays, Percent.isAlphanumeric, Percent.upperDigit_isAlphanum hn]
      rfl

theorem notMem_encode {x : Char} (hstays : stays x = false) (hpercent : x ≠ '%') (hplus : x ≠ '+')
    (s : List Char) : x ∉ encode s := by
  intro hmem
  rcases mem_encode hmem with h | h | h
  · rw [hstays] at h
    cases h
  · exact hpercent h
  · exact hplus h

/-- A name or value becomes at most twelve times as long. -/
theorem length_encode_le (s : List Char) : (encode s).length ≤ 12 * s.length := by
  induction s with
  | nil => exact Nat.le_refl 0
  | cons c s ih =>
    have hc : (encodeChar c).length ≤ 12 := by
      rw [encodeChar]
      split
      · exact Nat.le_of_ble_eq_true rfl
      · exact Percent.length_encodeChar_le c
    rw [encode] at ih ⊢
    rw [List.flatMap_cons, List.length_append, List.length_cons]
    omega

/-! ## Pieces and forms -/

/-- A piece is read back. -/
theorem readPair_renderPair (p : Param) : readPair (renderPair p) = p := by
  have hname : '=' ∉ encode p.name.toList :=
    notMem_encode (by decide) (by decide) (by decide) _
  rw [readPair, renderPair, Text.splitOnce_append hname]
  simp only [Option.getD_some, decode_encode, String.ofList_toList]

theorem renderPair_isPiece (p : Param) : renderPair p ≠ [] ∧ '&' ∉ renderPair p :=
  Text.pair_isPiece (by decide) (notMem_encode (by decide) (by decide) (by decide) _)
    (notMem_encode (by decide) (by decide) (by decide) _)

/-- A pair is written behind the others with an ampersand in front of it. -/
theorem render_concat {params : List Param} (h : params ≠ []) (p : Param) :
    render (params ++ [p]) = render params ++ '&' :: renderPair p := by
  rw [render, List.map_append, List.map_singleton, Text.join_concat (by simpa using h),
    List.append_assoc, ← render]
  rfl

/-- A form consists of the characters of its names and values, equals signs and ampersands. -/
theorem mem_render {x : Char} {params : List Param} (h : x ∈ render params) :
    stays x = true ∨ x ∈ "%+=&".toList := by
  have hmark : ∀ s : List Char, x ∈ encode s → stays x = true ∨ x ∈ "%+=&".toList := by
    intro s hs
    rcases mem_encode hs with hstays | rfl | rfl
    · exact .inl hstays
    · exact .inr (by decide)
    · exact .inr (by decide)
  rcases Text.mem_join h with hand | ⟨piece, hpiece, hx⟩
  · cases List.mem_singleton.1 hand
    exact .inr (by decide)
  · obtain ⟨p, -, rfl⟩ := List.mem_map.1 hpiece
    rw [renderPair, List.mem_append, List.mem_cons] at hx
    rcases hx with hname | rfl | hvalue
    · exact hmark _ hname
    · exact .inr (by decide)
    · exact hmark _ hvalue

/-- A form is read back. -/
theorem parse_render (params : List Param) : parse (render params) = params := by
  have hpieces : ∀ piece ∈ params.map renderPair, piece ≠ [] ∧ '&' ∉ piece := by
    intro piece hmem
    obtain ⟨p, -, rfl⟩ := List.mem_map.1 hmem
    exact renderPair_isPiece p
  rw [parse, render, Text.filter_split_join hpieces, List.map_map]
  conv => rhs; rw [← List.map_id params]
  exact List.map_congr_left fun p _ => readPair_renderPair p

end Gatehouse.Form
