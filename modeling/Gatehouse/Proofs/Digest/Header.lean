import Gatehouse.Digest.Response
import Gatehouse.Proofs.Digest.Nonce
import Gatehouse.Proofs.Text.Quotes
import Mathlib.Data.List.Basic

/-!
# Headers that are read as they were written

The writer beside the reader of Digest headers. A value may be written between quotes, and then it
may contain anything but quotes, or bare, and then it must not contain commas either.

- `Field`: a name and a value, with the way in which the value is written.
- `Element`, `fields_join`: elements between commas give what is written in them; blanks around
  fields and texts that are no fields do not matter.
- `fields_render`: fields that can be read are read as they were written.
- `Credentials.render`, `parse_render`: credentials are read as they were written.
- `Credentials.respond`: credentials with the response of someone who knows the password.
-/

namespace Gatehouse.Digest

/-! ## Fields -/

/-- Whether a value stands between quotes. -/
inductive Style where
  | quoted
  | bare
deriving DecidableEq, Repr

/-- A field to be written. -/
structure Field where
  name : String
  style : Style
  value : String
deriving DecidableEq, Repr

namespace Field

/-- A value as it is written. -/
def writeValue : Style → String → List Char
  | .quoted, value => '"' :: (value.toList ++ ['"'])
  | .bare, value => value.toList

/-- A field as it is written. -/
def render (f : Field) : List Char :=
  f.name.toList ++ '=' :: writeValue f.style f.value

/-- A name that stands for itself. -/
def IsName (name : String) : Prop :=
  '=' ∉ name.toList ∧ ',' ∉ name.toList ∧ '"' ∉ name.toList ∧ Text.trim name.toList = name.toList

instance (name : String) : Decidable (IsName name) :=
  inferInstanceAs (Decidable (_ ∧ _))

/-- A value that needs no quotes if it contains none. -/
def IsBare (value : String) : Prop :=
  ',' ∉ value.toList ∧ Text.trim value.toList = value.toList

/-- A field that can be read. -/
structure Legible (f : Field) : Prop where
  name : IsName f.name
  unquoted : '"' ∉ f.value.toList
  bare : f.style = .bare → IsBare f.value

namespace Legible

variable {f : Field}

theorem of_quoted {name value : String} (hname : IsName name) (hvalue : '"' ∉ value.toList) :
    Legible ⟨name, .quoted, value⟩ :=
  ⟨hname, hvalue, nofun⟩

theorem of_bare {name value : String} (hname : IsName name)
    (hvalue : '"' ∉ value.toList ∧ IsBare value) : Legible ⟨name, .bare, value⟩ :=
  ⟨hname, hvalue.1, fun _ => hvalue.2⟩

/-- A field is read as one piece. -/
theorem whole (h : f.Legible) : Text.Whole ',' false f.render := by
  obtain ⟨-, hcomma, hquote, -⟩ := h.name
  refine (Text.Whole.plain hquote hcomma).append (.char (by decide) (by decide) ?_)
  cases hstyle : f.style with
  | quoted => exact .between h.unquoted
  | bare => exact .plain h.unquoted (h.bare hstyle).1

theorem unquote_trim (h : f.Legible) {after : List Char}
    (hafter : ∀ c ∈ after, Text.isBlank c = true) :
    Text.unquote (Text.trim (writeValue f.style f.value ++ after)) = f.value.toList := by
  rw [← List.nil_append (writeValue f.style f.value), Text.trim_pad (by simp) hafter]
  cases hstyle : f.style with
  | quoted => rw [writeValue, Text.trim_quoted, Text.unquote_quoted]
  | bare => rw [writeValue, (h.bare hstyle).2, Text.unquote_of_notMem h.unquoted]

/-- A field is read as it was written, whatever blanks there are around it. -/
theorem readField_pad (h : f.Legible) (before after : List Char)
    (hsign : '=' ∉ before) (hbefore : ∀ c ∈ before, Text.isBlank c = true)
    (hafter : ∀ c ∈ after, Text.isBlank c = true) :
    readField (before ++ f.render ++ after) = some (f.name, f.value) := by
  have hname : '=' ∉ before ++ f.name.toList :=
    fun hmem => (List.mem_append.1 hmem).elim hsign h.name.1
  have hsplit : before ++ f.render ++ after =
      (before ++ f.name.toList) ++ '=' :: (writeValue f.style f.value ++ after) := by
    simp [render]
  have htrim : Text.trim (before ++ f.name.toList) = f.name.toList := by
    rw [← List.append_nil (before ++ f.name.toList), Text.trim_pad hbefore (by simp)]
    exact h.name.2.2.2
  rw [readField, hsplit, Text.splitOnce_append hname, Option.map_some]
  dsimp only
  rw [htrim, h.unquote_trim hafter, String.ofList_toList, String.ofList_toList]

end Legible

end Field

/-! ## Elements -/

/-- What stands between two commas of a header. -/
inductive Element where
  /-- A field, with blanks before and after it. -/
  | field (before : List Char) (f : Field) (after : List Char)
  /-- A text that gives no value to any name. -/
  | stray (text : List Char)

namespace Element

/-- An element as it is written. -/
def render : Element → List Char
  | .field before f after => before ++ f.render ++ after
  | .stray text => text

/-- The name and the value that an element gives. -/
def given? : Element → Option (String × String)
  | .field _ f _ => some (f.name, f.value)
  | .stray _ => none

/-- An element that can be read. -/
inductive Legible : Element → Prop where
  | field {before after : List Char} {f : Field} (hf : f.Legible)
    (hbefore : ∀ c ∈ before, Text.isBlank c = true)
    (hafter : ∀ c ∈ after, Text.isBlank c = true) : Legible (.field before f after)
  | stray {text : List Char} (hsign : '=' ∉ text) (hcomma : ',' ∉ text) (hquote : '"' ∉ text) :
    Legible (.stray text)

variable {e : Element}

/-- An element is read as one piece. -/
theorem Legible.whole (h : e.Legible) : Text.Whole ',' false e.render := by
  have hblank : ∀ {s : List Char}, (∀ c ∈ s, Text.isBlank c = true) → Text.Whole ',' false s :=
    fun hs => .plain (fun hmem => absurd (hs _ hmem) (by decide))
      (fun hmem => absurd (hs _ hmem) (by decide))
  cases h with
  | field hf hbefore hafter => exact ((hblank hbefore).append hf.whole).append (hblank hafter)
  | stray _ hcomma hquote => exact .plain hquote hcomma

/-- An element is read as what it gives. -/
theorem Legible.readField_eq (h : e.Legible) : readField e.render = e.given? := by
  cases h with
  | field hf hbefore hafter =>
    exact hf.readField_pad _ _ (fun hmem => absurd (hbefore _ hmem) (by decide)) hbefore hafter
  | stray hsign => rw [render, readField, Text.splitOnce_of_notMem hsign, Option.map_none, given?]

end Element

/-- Elements that can be read give what is written in them. -/
theorem fields_join {es : List Element} (h : ∀ e ∈ es, e.Legible) :
    fields (Text.join [','] (es.map Element.render)) = es.filterMap Element.given? := by
  by_cases hne : es = []
  · subst hne
    rfl
  · have hwhole : ∀ piece ∈ es.map Element.render, Text.Whole ',' false piece :=
      List.forall_mem_map.2 fun e he => (h e he).whole
    have hnil : es.map Element.render ≠ [] := fun hnil => hne (List.map_eq_nil_iff.1 hnil)
    rw [fields, Text.splitOutsideQuotes_join (by decide) hnil hwhole, List.filterMap_map]
    exact List.filterMap_congr fun e he => (h e he).readField_eq

/-! ## Lists of fields -/

/-- Fields as they are written, one after the other. -/
def renderFields (fs : List Field) : List Char :=
  Text.join ", ".toList (fs.map Field.render)

/-- Fields that can be read are read as they were written. -/
theorem fields_render {fs : List Field} (h : ∀ f ∈ fs, f.Legible) :
    fields (renderFields fs) = fs.map fun f => (f.name, f.value) := by
  cases fs with
  | nil => rfl
  | cons f fs =>
    -- all fields but the first stand behind the blank that follows a comma
    let es : List Element := .field [] f [] :: fs.map (.field [' '] · [])
    have hrender : es.map Element.render = f.render :: (fs.map Field.render).map (' ' :: ·) := by
      simp [es, Element.render, Function.comp_def]
    have hgiven : es.filterMap Element.given? = (f :: fs).map fun f => (f.name, f.value) := by
      simp [es, Element.given?, List.filterMap_map, Function.comp_def]
    have hlegible : ∀ e ∈ es, e.Legible := by
      rw [List.forall_mem_cons] at h
      refine List.forall_mem_cons.2 ⟨.field h.1 (by simp) (by simp), List.forall_mem_map.2 ?_⟩
      exact fun g hg => .field (h.2 g hg) (List.forall_mem_singleton.2 (by decide)) (by simp)
    rw [← hgiven, ← fields_join hlegible, hrender]
    exact congrArg fields (Text.join_blank ',' f.render (fs.map Field.render))

/-! ## Credentials -/

namespace Credentials

/-- The fields in which credentials are written. -/
def written (c : Credentials) : List Field :=
  [⟨"username", .quoted, c.username⟩, ⟨"realm", .quoted, c.realm⟩, ⟨"nonce", .quoted, c.nonce⟩,
      ⟨"uri", .quoted, c.uri⟩, ⟨"response", .quoted, c.response⟩]
    ++ (c.qop.map (⟨"qop", .bare, ·⟩)).toList ++ (c.nc.map (⟨"nc", .bare, ·⟩)).toList
    ++ (c.cnonce.map (⟨"cnonce", .quoted, ·⟩)).toList

/-- The header of credentials. -/
def render (c : Credentials) : String :=
  String.ofList (scheme ++ renderFields c.written)

/-- Credentials are found in the fields in which they are written. -/
theorem ofFields_written (c : Credentials) :
    ofFields (c.written.map fun f => (f.name, f.value)) = checkProtection c := by
  obtain ⟨username, realm, nonce, uri, response, qop, nc, cnonce⟩ := c
  cases qop <;> cases nc <;> cases cnonce <;> simp [written, ofFields, lastValue]

/-- Whether credentials ask for no protection, or for the one that is supported, with all that it
needs. -/
def Supported (c : Credentials) : Prop :=
  c.qop = none ∨ c.qop = some "auth" ∧ c.nc.isSome ∧ c.cnonce.isSome

theorem Supported.checkProtection_eq {c : Credentials} (h : c.Supported) :
    checkProtection c = .ok c := by
  rcases h with hqop | ⟨hqop, hnc, hcnonce⟩
  · rw [checkProtection, hqop]
  · simp [checkProtection, hqop, hnc, hcnonce]

/-- Credentials pass the check if they are supported, and they pass unchanged. -/
theorem supported_of_checkProtection {c c' : Credentials} (h : checkProtection c' = .ok c) :
    c.Supported := by
  unfold checkProtection at h
  split at h
  · next hqop =>
    cases h
    exact .inl hqop
  · next qop hqop =>
    split at h
    · next hauth =>
      split at h
      · next hboth =>
        cases h
        exact .inr ⟨hqop.trans (congrArg some hauth), Bool.and_eq_true_iff.1 hboth⟩
      · cases h
    · cases h

/-- Credentials whose values can be read when they are written in this way. -/
structure Plain (c : Credentials) : Prop where
  username : '"' ∉ c.username.toList
  realm : '"' ∉ c.realm.toList
  nonce : '"' ∉ c.nonce.toList
  uri : '"' ∉ c.uri.toList
  response : '"' ∉ c.response.toList
  qop : ∀ qop ∈ c.qop, '"' ∉ qop.toList ∧ Field.IsBare qop
  nc : ∀ nc ∈ c.nc, '"' ∉ nc.toList ∧ Field.IsBare nc
  cnonce : ∀ cnonce ∈ c.cnonce, '"' ∉ cnonce.toList

theorem Plain.legible {c : Credentials} (h : c.Plain) : ∀ f ∈ c.written, f.Legible := by
  intro f hf
  simp only [written, List.mem_append, List.mem_cons, List.not_mem_nil, or_false,
    Option.mem_toList, Option.map_eq_some_iff] at hf
  rcases hf with (((rfl | rfl | rfl | rfl | rfl) | ⟨qop, hqop, rfl⟩) | ⟨nc, hnc, rfl⟩) |
    ⟨cnonce, hcnonce, rfl⟩
  · exact .of_quoted (by decide) h.username
  · exact .of_quoted (by decide) h.realm
  · exact .of_quoted (by decide) h.nonce
  · exact .of_quoted (by decide) h.uri
  · exact .of_quoted (by decide) h.response
  · exact .of_bare (by decide) (h.qop qop hqop)
  · exact .of_bare (by decide) (h.nc nc hnc)
  · exact .of_quoted (by decide) (h.cnonce cnonce hcnonce)

end Credentials

/-- Credentials are read as they were written. -/
theorem parse_render {c : Credentials} (hplain : c.Plain)
    (hprotection : checkProtection c = .ok c) : parse c.render = .ok c := by
  rw [parse, Credentials.render, String.toList_ofList, Text.dropStart?_append]
  dsimp only
  rw [fields_render hplain.legible, c.ofFields_written, hprotection]

/-- Credentials that were read are supported. -/
theorem supported_of_parse {header : String} {c : Credentials} (h : parse header = .ok c) :
    c.Supported := by
  unfold parse at h
  split at h
  · unfold ofFields at h
    split at h
    · exact Credentials.supported_of_checkProtection h
    · cases h
  · cases h

/-! ## Responses -/

/-- A response is a digest in hexadecimal digits. -/
theorem notMem_expected {x : Char} (hx : x ∉ "0123456789abcdef".toList) {c : Credentials}
    {method password response : String} {alreadyEncoded : Bool}
    (h : expected c method password alreadyEncoded = .ok response) : x ∉ response.toList := by
  unfold expected at h
  cases hp : preimage c (secret c password alreadyEncoded) (requestHash method c.uri) with
  | error e =>
    rw [hp] at h
    cases h
  | ok text =>
    rw [hp] at h
    cases h
    rw [String.toList_ofList]
    exact notMem_md5Hex hx text

/-- There is a right response to credentials that ask for no protection, or for the one that is
supported. -/
theorem exists_expected {c : Credentials} (h : c.qop = none ∨ c.qop = some "auth")
    (method password : String) (alreadyEncoded : Bool) :
    ∃ response, expected c method password alreadyEncoded = .ok response := by
  unfold expected preimage
  rcases h with hqop | hqop
  · rw [hqop]
    exact ⟨_, rfl⟩
  · rw [hqop]
    exact ⟨_, rfl⟩

namespace Credentials

/-- The credentials with the response of someone who knows the password. -/
def respond (c : Credentials) (method password : String) (alreadyEncoded : Bool) : Credentials :=
  match expected c method password alreadyEncoded with
  | .ok response => { c with response }
  | .error _ => c

theorem respond_eq {c : Credentials} {method password response : String} {alreadyEncoded : Bool}
    (h : expected c method password alreadyEncoded = .ok response) :
    c.respond method password alreadyEncoded = { c with response } := by
  rw [respond, h]

end Credentials

end Gatehouse.Digest
