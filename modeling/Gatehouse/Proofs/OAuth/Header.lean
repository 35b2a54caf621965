import Gatehouse.OAuth.Header
import Gatehouse.Proofs.Percent
import Gatehouse.Proofs.Text.Quotes

/-!
# Parameters in a header

A header is cut at its commas, and each piece at its first equals sign. Neither of the two is
written for a name or a value, so that every parameter of a header is found again. The realm is
left out, and so is a parameter without a name.

- `decodeHeader_join`: a header is read piece by piece.
- `readElement_pad`, `readElement_renderElement`: what a piece is read as.
- `decodeHeader_renderHeader`: the parameters of a header are read back.
-/

namespace Gatehouse.OAuth

/-! ## Pieces -/

/-- A header is read piece by piece, whatever the letter case of its scheme. -/
theorem decodeHeader_join {scheme : List Char} {pieces : List (List Char)}
    (hscheme : scheme.map Char.toLower = "oauth ".toList) (hne : pieces ≠ [])
    (hcomma : ∀ piece ∈ pieces, ',' ∉ piece) :
    decodeHeader (String.ofList (scheme ++ Text.join [','] pieces)) =
      pieces.filterMap readElement := by
  have hlen : scheme.length = 6 := by simpa using congrArg List.length hscheme
  have hoauth : isOAuth (String.ofList (scheme ++ Text.join [','] pieces)) = true := by
    rw [isOAuth, String.toList_ofList, List.take_left' hlen, hscheme, beq_self_eq_true]
  rw [decodeHeader, if_pos hoauth, String.toList_ofList, List.drop_left' hlen,
    Text.split_join hne hcomma]

/-- Blanks around a piece do not matter. -/
theorem readElement_pad {before after : List Char}
    (hbefore : ∀ c ∈ before, Text.isBlank c = true) (hafter : ∀ c ∈ after, Text.isBlank c = true)
    (piece : List Char) : readElement (before ++ piece ++ after) = readElement piece := by
  rw [readElement, readElement, Text.trim_pad hbefore hafter]

/-- A space after each comma does not matter. -/
theorem filterMap_readElement_space (pieces : List (List Char)) :
    (pieces.map (' ' :: ·)).filterMap readElement = pieces.filterMap readElement := by
  rw [List.filterMap_map]
  refine congrArg (List.filterMap · pieces) (funext fun piece => ?_)
  have hpad : readElement ([' '] ++ piece ++ []) = readElement piece :=
    readElement_pad (List.forall_mem_singleton.2 (by decide)) (List.forall_mem_nil _) piece
  rwa [List.append_nil] at hpad

/-! ## Parameters -/

/-- No unreserved character is blank. -/
theorem isBlank_of_isUnreserved {c : Char} (h : Percent.isUnreserved c = true) :
    Text.isBlank c = false := by
  have hall : ∀ n < 128, Percent.isUnreserved (Char.ofNat n) = true →
      Text.isBlank (Char.ofNat n) = false := by decide +kernel
  have hc := hall c.toNat (Percent.plain_isUnreserved c h).1
  rw [Char.ofNat_toNat] at hc
  exact hc h

theorem isBlank_of_mem_oauthEncode {c : Char} {s : List Char} (h : c ∈ Percent.oauthEncode s) :
    Text.isBlank c = false := by
  rcases Percent.mem_oauthEncode h with hkeep | rfl
  · exact isBlank_of_isUnreserved hkeep
  · decide

/-- A parameter as it is written: the name, an equals sign, and the value between quotes. -/
theorem renderElement_eq (p : Param) :
    renderElement p = Percent.oauthEncode p.name.toList ++
      '=' :: '"' :: (Percent.oauthEncode p.value.toList ++ ['"']) := by
  rw [renderElement, List.append_assoc]
  rfl

theorem comma_notMem_renderElement (p : Param) : ',' ∉ renderElement p := by
  have hencode : ∀ s : List Char, ',' ∉ Percent.oauthEncode s :=
    Percent.notMem_oauthEncode (by decide) (by decide)
  rw [renderElement_eq]
  simp [hencode]

/-- A parameter is read back, unless its name is to be skipped. -/
theorem readElement_renderElement (p : Param) :
    readElement (renderElement p) = if isSkipped p.name.toList then none else some p := by
  have hname : '=' ∉ Percent.oauthEncode p.name.toList :=
    Percent.notMem_oauthEncode (by decide) (by decide) _
  have hplain : ∀ c ∈ renderElement p, Text.isBlank c = false := by
    intro c hc
    rw [renderElement_eq, List.mem_append, List.mem_cons, List.mem_cons, List.mem_append,
      List.mem_singleton] at hc
    rcases hc with hc | rfl | rfl | hc | rfl
    · exact isBlank_of_mem_oauthEncode hc
    · decide
    · decide
    · exact isBlank_of_mem_oauthEncode hc
    · decide
  have htrim : Text.trim (Percent.oauthEncode p.name.toList) = Percent.oauthEncode p.name.toList :=
    Text.trim_of_notBlank fun _ => isBlank_of_mem_oauthEncode
  rw [readElement, Text.trim_of_notBlank hplain, renderElement_eq, Text.splitOnce_append hname]
  simp only [htrim, Text.trim_quoted, Text.unquote_quoted, Percent.decode_oauthEncode,
    String.ofList_toList]

/-! ## Headers -/

theorem renderHeader_cons (p : Param) (params : List Param) :
    renderHeader (p :: params) = String.ofList ("OAuth ".toList ++
      Text.join [','] (renderElement p :: (params.map renderElement).map (' ' :: ·))) :=
  congrArg (fun text => String.ofList ("OAuth ".toList ++ text)) (Text.join_blank ',' _ _)

/-- The parameters of a header are read back in their order, but for those without a name and for
the realm. -/
theorem decodeHeader_renderHeader (params : List Param) :
    decodeHeader (renderHeader params) = params.filter fun p => !isSkipped p.name.toList := by
  have hread : (params.map renderElement).filterMap readElement =
      params.filter fun p => !isSkipped p.name.toList := by
    rw [List.filterMap_map, ← List.filterMap_eq_filter]
    refine congrArg (List.filterMap · params) (funext fun p => ?_)
    rw [Function.comp_apply, readElement_renderElement, Option.guard]
    cases isSkipped p.name.toList with
    | true => rfl
    | false => rfl
  cases params with
  | nil => decide +kernel
  | cons p params =>
    have hcomma : ∀ piece ∈ renderElement p :: (params.map renderElement).map (' ' :: ·),
        ',' ∉ piece := by
      intro piece hpiece
      rcases List.mem_cons.1 hpiece with rfl | hpiece
      · exact comma_notMem_renderElement p
      · obtain ⟨_, hmem, rfl⟩ := List.mem_map.1 hpiece
        obtain ⟨q, -, rfl⟩ := List.mem_map.1 hmem
        simpa using comma_notMem_renderElement q
    rw [renderHeader_cons, decodeHeader_join (by decide) (List.cons_ne_nil _ _) hcomma,
      List.filterMap_cons, filterMap_readElement_space, ← List.filterMap_cons]
    exact hread

end Gatehouse.OAuth
