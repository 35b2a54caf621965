import Gatehouse.Proofs.OAuth.Header
import Gatehouse.Proofs.Text.LetterCase
import Mathlib.Data.List.Basic

/-!
# Every way to write a header

A header can be written in many ways: its scheme in any letter case, its values with quotes or
without, with blanks around the commas, and with elements between the parameters that say nothing,
which are realms and texts without an equals sign. What is read is the same for all of them, the
parameters in their order.

- `Element`, `Element.Legible`: what may stand between two commas of a header.
- `Element.param?`: the parameter that an element is written for.
- `header`: a scheme and elements, as they are written.
- `decodeHeader_header`: a header gives the parameters that it was written for.
-/

namespace Gatehouse.OAuth

/-! ## Values with and without quotes -/

/-- A parameter whose value stands by itself. -/
def renderBare (p : Param) : List Char :=
  Percent.oauthEncode p.name.toList ++ '=' :: Percent.oauthEncode p.value.toList

theorem comma_notMem_renderBare (p : Param) : ',' ∉ renderBare p := by
  have hencode : ∀ s : List Char, ',' ∉ Percent.oauthEncode s :=
    Percent.notMem_oauthEncode (by decide) (by decide)
  rw [renderBare]
  simp [hencode]

/-- Encoded texts need no quotes: without them a parameter is read as it is with them. -/
theorem readElement_renderBare (p : Param) :
    readElement (renderBare p) = if isSkipped p.name.toList then none else some p := by
  have hplain : ∀ c ∈ renderBare p, Text.isBlank c = false := by
    intro c hc
    rw [renderBare, List.mem_append, List.mem_cons] at hc
    rcases hc with hc | rfl | hc
    · exact isBlank_of_mem_oauthEncode hc
    · decide
    · exact isBlank_of_mem_oauthEncode hc
  have htrim : ∀ s : List Char, Text.trim (Percent.oauthEncode s) = Percent.oauthEncode s :=
    fun s => Text.trim_of_notBlank fun _ => isBlank_of_mem_oauthEncode
  have hunquote : ∀ s : List Char, Text.unquote (Percent.oauthEncode s) = Percent.oauthEncode s :=
    fun s => Text.unquote_of_notMem (Percent.notMem_oauthEncode (by decide) (by decide) s)
  have hsplit : Text.splitOnce '=' (renderBare p) =
      some (Percent.oauthEncode p.name.toList, Percent.oauthEncode p.value.toList) :=
    Text.splitOnce_append (Percent.notMem_oauthEncode (by decide) (by decide) _) _
  rw [readElement, Text.trim_of_notBlank hplain, hsplit]
  simp only [htrim, hunquote, Percent.decode_oauthEncode, String.ofList_toList]

/-! ## Realms -/

/-- The name of a realm, in any letter case. -/
def IsRealm (name : List Char) : Prop :=
  name.map Char.toLower = "realm".toList

namespace IsRealm

variable {name : List Char}

theorem isUnreserved (h : IsRealm name) : ∀ c ∈ name, Percent.isUnreserved c = true :=
  Text.forall_mem_of_map_toLower (Text.apply_toLower Percent.isUnreserved (by decide))
    (show "realm".toList.map Char.toLower = _ from h.symm) (List.all_eq_true.1 rfl)

theorem isBlank (h : IsRealm name) : ∀ c ∈ name, Text.isBlank c = false :=
  fun c hc => isBlank_of_isUnreserved (h.isUnreserved c hc)

theorem notMem (h : IsRealm name) {c : Char} (hc : Percent.isUnreserved c = false) :
    c ∉ name := by
  intro hmem
  rw [h.isUnreserved c hmem] at hc
  cases hc

/-- The name is read as it is written, and skipped. -/
theorem isSkipped_decode (h : IsRealm name) : isSkipped (Percent.decode name) = true := by
  have hname : Percent.oauthEncode name = name := by
    have hkeep : ∀ c ∈ name, Percent.encodeChar Percent.isUnreserved c = [c] :=
      fun c hc => if_pos (h.isUnreserved c hc)
    rw [Percent.oauthEncode, Percent.encodeWith, List.flatMap_congr hkeep, List.flatMap_singleton']
  have hdecode := Percent.decode_oauthEncode name
  rw [hname] at hdecode
  rw [hdecode, isSkipped, show name.map Char.toLower = _ from h, beq_self_eq_true, Bool.or_true]

end IsRealm

/-- A realm as it is written. -/
def renderRealm (name value : List Char) : List Char :=
  name ++ '=' :: '"' :: (value ++ ['"'])

/-- A realm is no parameter, whatever stands between its quotes. -/
theorem readElement_renderRealm {name : List Char} (h : IsRealm name) (value : List Char) :
    readElement (renderRealm name value) = none := by
  have htrim : Text.trim (renderRealm name value) = renderRealm name value := by
    cases name with
    | nil => cases h
    | cons c name =>
      have hends := Text.trim_of_ends (h.isBlank c List.mem_cons_self)
        (show Text.isBlank '"' = false by decide) (name ++ '=' :: '"' :: value)
      simpa [renderRealm] using hends
  have hsplit : Text.splitOnce '=' (renderRealm name value) =
      some (name, '"' :: (value ++ ['"'])) :=
    Text.splitOnce_append (h.notMem (by decide)) _
  rw [readElement, htrim, hsplit]
  simp only [Text.trim_of_notBlank h.isBlank, h.isSkipped_decode, if_true]

/-! ## Elements -/

/-- What stands between two commas of a header. -/
inductive Element where
  /-- A parameter with quotes around its value. -/
  | quoted (before : List Char) (p : Param) (after : List Char)
  /-- A parameter without quotes. -/
  | bare (before : List Char) (p : Param) (after : List Char)
  /-- A realm between quotes. -/
  | realm (before name value after : List Char)
  /-- A text without an equals sign. -/
  | stray (text : List Char)

namespace Element

/-- An element as it is written, with what is around it. -/
def text : Element → List Char
  | .quoted before p after => before ++ renderElement p ++ after
  | .bare before p after => before ++ renderBare p ++ after
  | .realm before name value after => before ++ renderRealm name value ++ after
  | .stray text => text

/-- The parameter that an element is written for. -/
def param? : Element → Option Param
  | .quoted _ p _ => some p
  | .bare _ p _ => some p
  | .realm _ _ _ _ => none
  | .stray _ => none

/-- A name that can be written in a header: it is not empty, and not that of a realm. -/
def IsName (name : String) : Prop :=
  name.toList ≠ [] ∧ ¬IsRealm name.toList

theorem isSkipped_of_isName {name : String} (h : IsName name) :
    isSkipped name.toList = false := by
  rw [isSkipped, Bool.or_eq_false_iff, List.isEmpty_eq_false_iff, beq_eq_false_iff_ne]
  exact h

/-- A text of blanks. -/
def IsPadding (s : List Char) : Prop :=
  ∀ c ∈ s, Text.isBlank c = true

theorem IsPadding.comma_notMem {s : List Char} (h : IsPadding s) : ',' ∉ s :=
  fun hmem => absurd (h _ hmem) (by decide)

/-- An element that may stand in a header. -/
inductive Legible : Element → Prop where
  | quoted {before after : List Char} {p : Param} (hbefore : IsPadding before)
    (hname : IsName p.name) (hafter : IsPadding after) : Legible (.quoted before p after)
  | bare {before after : List Char} {p : Param} (hbefore : IsPadding before)
    (hname : IsName p.name) (hafter : IsPadding after) : Legible (.bare before p after)
  | realm {before name value after : List Char} (hbefore : IsPadding before)
    (hname : IsRealm name) (hcomma : ',' ∉ value) (hafter : IsPadding after) :
    Legible (.realm before name value after)
  | stray {text : List Char} (hcomma : ',' ∉ text) (hsign : '=' ∉ text) : Legible (.stray text)

variable {e : Element}

theorem Legible.comma_notMem (h : e.Legible) : ',' ∉ e.text := by
  have hpad : ∀ {before after piece : List Char}, IsPadding before → ',' ∉ piece →
      IsPadding after → ',' ∉ before ++ piece ++ after := by
    intro before after piece hbefore hpiece hafter
    simp [hbefore.comma_notMem, hpiece, hafter.comma_notMem]
  cases h with
  | quoted hbefore _ hafter => exact hpad hbefore (comma_notMem_renderElement _) hafter
  | bare hbefore _ hafter => exact hpad hbefore (comma_notMem_renderBare _) hafter
  | realm hbefore hname hcomma hafter =>
    refine hpad hbefore ?_ hafter
    simp [renderRealm, hname.notMem (show Percent.isUnreserved ',' = false by decide), hcomma]
  | stray hcomma => exact hcomma

/-- An element is read as the parameter that it is written for. -/
theorem Legible.readElement_eq (h : e.Legible) : readElement e.text = e.param? := by
  cases h with
  | quoted hbefore hname hafter =>
    rw [text, readElement_pad hbefore hafter, readElement_renderElement,
      isSkipped_of_isName hname]
    rfl
  | bare hbefore hname hafter =>
    rw [text, readElement_pad hbefore hafter, readElement_renderBare, isSkipped_of_isName hname]
    rfl
  | realm hbefore hname _ hafter =>
    exact (readElement_pad hbefore hafter _).trans (readElement_renderRealm hname _)
  | @stray s _ hsign =>
    have htrim : '=' ∉ Text.trim s := by
      intro hmem
      have hstart := (List.dropWhile_sublist _).subset
        (List.mem_reverse.1 ((List.dropWhile_sublist _).subset (List.mem_reverse.1 hmem)))
      exact hsign hstart
    rw [text, readElement, Text.splitOnce_of_notMem htrim]
    rfl

end Element

/-! ## Headers -/

/-- A header of elements. -/
def header (scheme : List Char) (es : List Element) : String :=
  String.ofList (scheme ++ Text.join [','] (es.map Element.text))

/-- A header gives the parameters that it was written for, all of them and in their order, however
they are written and whatever realms and other texts stand between them. -/
theorem decodeHeader_header {scheme : List Char} {es : List Element}
    (hscheme : scheme.map Char.toLower = "oauth ".toList) (hlegible : ∀ e ∈ es, e.Legible) :
    decodeHeader (header scheme es) = es.filterMap Element.param? := by
  have hread : (es.map Element.text).filterMap readElement = es.filterMap Element.param? := by
    rw [List.filterMap_map]
    exact List.filterMap_congr fun e he => (hlegible e he).readElement_eq
  by_cases hne : es = []
  · subst hne
    -- a header without elements is read as one with an empty text for its only element
    have hempty := decodeHeader_join hscheme (List.cons_ne_nil ([] : List Char) []) (by simp)
    exact hempty
  · have hcomma : ∀ piece ∈ es.map Element.text, ',' ∉ piece :=
      List.forall_mem_map.2 fun e he => (hlegible e he).comma_notMem
    rw [header, decodeHeader_join hscheme (by simpa using hne) hcomma, hread]

/-- Two parameters with the same name, one with quotes and one without, whose values look like
quotes, separators and escapes, among realms and other texts. -/
theorem decodeHeader_header_mixed :
    header "oAuTH ".toList
        [.realm [' '] "ReaLm".toList "a = b".toList [], .quoted [' '] ⟨"n", "\"a\", b=%41+é"⟩ ['\t'],
          .stray " auth-param ".toList, .bare [] ⟨"n", ""⟩ [' ', ' '], .stray []] =
      "oAuTH  ReaLm=\"a = b\", n=\"%22a%22%2C%20b%3D%2541%2B%C3%A9\"\t, auth-param ,n=  ," ∧
    decodeHeader
        "oAuTH  ReaLm=\"a = b\", n=\"%22a%22%2C%20b%3D%2541%2B%C3%A9\"\t, auth-param ,n=  ," =
      [⟨"n", "\"a\", b=%41+é"⟩, ⟨"n", ""⟩] := by
  have htext : header "oAuTH ".toList
      [.realm [' '] "ReaLm".toList "a = b".toList [], .quoted [' '] ⟨"n", "\"a\", b=%41+é"⟩ ['\t'],
        .stray " auth-param ".toList, .bare [] ⟨"n", ""⟩ [' ', ' '], .stray []] =
      "oAuTH  ReaLm=\"a = b\", n=\"%22a%22%2C%20b%3D%2541%2B%C3%A9\"\t, auth-param ,n=  ," := by
    decide +kernel
  have hpadding : ∀ {s : List Char}, s.all Text.isBlank = true → Element.IsPadding s :=
    fun h => List.all_eq_true.1 h
  have hname : Element.IsName "n" := ⟨by decide, show _ ≠ _ by decide⟩
  refine ⟨htext, ?_⟩
  rw [← htext]
  refine decodeHeader_header (by decide) ?_
  simp only [List.forall_mem_cons]
  exact ⟨.realm (hpadding (by decide)) (show _ = _ by decide) (by decide) (hpadding (by decide)),
    .quoted (hpadding (by decide)) hname (hpadding (by decide)), .stray (by decide) (by decide),
    .bare (hpadding (by decide)) hname (hpadding (by decide)), .stray (by decide) (by decide),
    List.forall_mem_nil _⟩

end Gatehouse.OAuth
