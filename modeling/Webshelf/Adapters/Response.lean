import Mathlib.Data.List.Perm.Basic

/-!
# The response of the two web adapters

`Response` of `webshelf-runtime` and its translations into an Axum and a Salvo
response. The builder behind Axum remembers its first error and answers with
the default response in the end; Salvo leaves out what does not parse.
-/

namespace Webshelf.Adapters

/-- `serde_json::Value`; an object keeps its members in the order of the text. -/
inductive Json where
  | null
  | bool (b : Bool)
  | number (text : String)
  | string (s : String)
  | array (items : List Json)
  | object (members : List (String × Json))

abbrev Bytes := List UInt8

abbrev StatusCode := Nat

/-! ## Header names and values -/

/-- `str::to_ascii_lowercase`. -/
def toAsciiLowercase (s : String) : String := .ofList (s.toList.map Char.toLower)

/-- The bytes `HeaderName` accepts once it has lowered the letters. -/
def isNameChar (c : Char) : Bool :=
  ('a' ≤ c && c ≤ 'z') || ('0' ≤ c && c ≤ '9') ||
    c ∈ ['!', '#', '$', '%', '&', '\'', '*', '+', '-', '.', '^', '_', '\x60', '|', '~']

/-- A header name, stored in lower case. -/
structure HeaderName where
  text : String
  token : (text ≠ "" ∧ text.utf8ByteSize < 65536 ∧ text.toList.all isNameChar = true)
  deriving DecidableEq

/-- `HeaderName::from_bytes`. -/
def HeaderName.fromBytes (name : String) : Option HeaderName :=
  let text := toAsciiLowercase name
  if h : text ≠ "" ∧ text.utf8ByteSize < 65536 ∧ text.toList.all isNameChar = true then
    some ⟨text, h⟩
  else none

/-- No control character but the tab. -/
def isValueChar (c : Char) : Bool :=
  (32 ≤ c.toNat && c.toNat != 127) || c == '\t'

structure HeaderValue where
  text : String
  printable : text.toList.all isValueChar = true
  deriving DecidableEq

/-- `HeaderValue::from_str`, also behind `parse` and the builder. -/
def HeaderValue.fromStr (value : String) : Option HeaderValue :=
  if h : value.toList.all isValueChar = true then some ⟨value, h⟩ else none

/-- A multimap; `HeaderMap::insert` replaces, `append` adds. -/
abbrev HeaderMap := List (HeaderName × HeaderValue)

def HeaderMap.insert (headers : HeaderMap) (name : HeaderName) (value : HeaderValue) : HeaderMap :=
  headers.filter (fun h => h.1 != name) ++ [(name, value)]

def HeaderMap.append (headers : HeaderMap) (name : HeaderName) (value : HeaderValue) : HeaderMap :=
  headers ++ [(name, value)]

/-- `str::eq_ignore_ascii_case`. -/
def eqIgnoreAsciiCase (s t : String) : Bool := toAsciiLowercase s == toAsciiLowercase t

def HeaderName.CONTENT_TYPE : HeaderName := ⟨"content-type", by decide⟩

/-! ## The unified response -/

inductive ResponseBody where
  | empty
  | json (value : Json)
  | bytes (bytes : Bytes)

structure Response where
  status : StatusCode := 200
  headers : List (HeaderName × String) := []
  body : ResponseBody := .empty
  contentType : Option String := none

namespace Response

def setStatus (resp : Response) (status : StatusCode) : Response := { resp with status }

def setTextBody (resp : Response) (text : String) : Response :=
  { resp with body := .bytes text.toUTF8.toList }

def insertHeader (resp : Response) (name value : String) : Response :=
  match HeaderName.fromBytes name with
  | some headerName => { resp with headers := resp.headers ++ [(headerName, value)] }
  | none => resp

/-- `read_bytes`; `toVec` is `serde_json::to_vec`. -/
def readBytes (toVec : Json → Except String Bytes) (resp : Response) : Except String Bytes :=
  match resp.body with
  | .empty => .ok []
  | .json value => toVec value
  | .bytes bytes => .ok bytes

end Response

/-! ## The adapters -/

/-- A response as the web frameworks send it. -/
structure HttpResponse where
  status : StatusCode := 200
  headers : HeaderMap := []
  body : Bytes := []

/-- `http::response::Builder`, `none` from its first error on. -/
abbrev Builder := Option HeaderMap

def Builder.header (builder : Builder) (name value : String) : Builder := do
  let headers ← builder
  let headerName ← HeaderName.fromBytes name
  let headerValue ← HeaderValue.fromStr value
  some (headers.append headerName headerValue)

/-- The explicit content type, or the one that goes with the body. -/
def Response.effectiveContentType (resp : Response) : String :=
  resp.contentType.getD <| match resp.body with
    | .json _ => "application/json; charset=utf-8"
    | _ => "text/plain; charset=utf-8"

def responseToAxum (toVec : Json → Except String Bytes) (resp : Response) : HttpResponse :=
  let builder : Builder := Builder.header (some []) "content-type" resp.effectiveContentType
  let builder := resp.headers.foldl (fun builder (name, value) =>
    if eqIgnoreAsciiCase name.text "content-type" then builder
    else builder.header name.text value) builder
  match resp.readBytes toVec with
  | .ok bytes =>
    -- `builder.body(..).unwrap_or_default()`
    match builder with
    | some headers => { status := resp.status, headers, body := bytes }
    | none => {}
  | .error _ => { status := 500 }

/-- A value that does not parse is left out. -/
def HeaderMap.appendParsed (headers : HeaderMap) (name : HeaderName) (value : String) :
    HeaderMap :=
  match HeaderValue.fromStr value with
  | some parsed => headers.append name parsed
  | none => headers

/-- `render_response`, which writes into the response `res` of the framework. -/
def renderResponse (toVec : Json → Except String Bytes) (resp : Response) (res : HttpResponse) :
    HttpResponse :=
  let ctValue := (HeaderValue.fromStr resp.effectiveContentType).getD
    ⟨"text/plain; charset=utf-8", by decide⟩
  let headers := res.headers.insert .CONTENT_TYPE ctValue
  let headers := resp.headers.foldl (fun headers (name, value) =>
    if eqIgnoreAsciiCase name.text "content-type" then headers
    else headers.appendParsed name value) headers
  match resp.readBytes toVec with
  | .ok bytes => { status := resp.status, headers, body := res.body ++ bytes }
  | .error _ => { status := 500, headers, body := res.body }

/-! ## Where they agree -/

theorem isNameChar_lower {c : Char} (h : isNameChar c = true) : c.toLower = c := by
  have hu : ¬ (c.val ≥ 'A'.val ∧ c.val ≤ 'Z'.val) := by
    rintro ⟨hA, hZ⟩
    simp only [isNameChar, Bool.or_eq_true, Bool.and_eq_true, decide_eq_true_eq, List.mem_cons,
      List.not_mem_nil, or_false, Char.le_def, ge_iff_le, UInt32.le_iff_toNat_le] at h hA hZ
    rcases h with (⟨h, _⟩ | ⟨_, h⟩) | h
    · exact absurd (Nat.le_trans h hZ) (by decide)
    · exact absurd (Nat.le_trans hA h) (by decide)
    · rcases h with rfl | rfl | rfl | rfl | rfl | rfl | rfl | rfl | rfl | rfl | rfl | rfl | rfl |
        rfl | rfl <;> first | exact absurd hA (by decide) | exact absurd hZ (by decide)
  exact dif_neg hu

/-- A header name read back from its text is the same name. -/
theorem HeaderName.fromBytes_text (name : HeaderName) : fromBytes name.text = some name := by
  obtain ⟨text, token⟩ := name
  have hall : ∀ c ∈ text.toList, c.toLower = c := by
    intro c hc
    exact isNameChar_lower (List.all_eq_true.mp token.2.2 c hc)
  have hlower : toAsciiLowercase text = text := by
    rw [toAsciiLowercase, List.map_congr_left hall, List.map_id', String.ofList_toList]
  simp only [fromBytes, hlower]
  exact dif_pos token

/-- The value of a header is free of control characters. -/
abbrev Parses (value : String) : Prop := value.toList.all isValueChar = true

theorem HeaderValue.fromStr_parses {value : String} (h : Parses value) :
    fromStr value = some ⟨value, h⟩ := dif_pos h

theorem HeaderValue.fromStr_none {value : String} (h : ¬ Parses value) : fromStr value = none :=
  dif_neg h

namespace Response

/-- The headers next to the content type. -/
def others (resp : Response) : List (HeaderName × String) :=
  resp.headers.filter fun h => !eqIgnoreAsciiCase h.1.text "content-type"

/-- Everything of the response can be sent. -/
structure WellFormed (toVec : Json → Except String Bytes) (resp : Response) : Prop where
  body : ∃ bytes, resp.readBytes toVec = .ok bytes
  contentType : ∀ contentType, resp.contentType = some contentType → Parses contentType
  values : ∀ h ∈ resp.others, Parses h.2

end Response

/-- The headers of a list whose values parse. -/
def parsed (headers : List (HeaderName × String)) : HeaderMap :=
  headers.filterMap fun h => (HeaderValue.fromStr h.2).map (h.1, ·)

theorem foldl_others {β : Type} (f : β → HeaderName × String → β) (resp : Response) (b : β) :
    resp.headers.foldl (fun b h =>
      if eqIgnoreAsciiCase h.1.text "content-type" then b else f b h) b =
      resp.others.foldl f b := by
  unfold Response.others
  induction resp.headers generalizing b with
  | nil => rfl
  | cons h hs ih =>
    rw [List.foldl_cons, ih]
    cases hct : eqIgnoreAsciiCase h.1.text "content-type" with
    | true => rw [List.filter_cons_of_neg (by simp [hct]), if_pos rfl]
    | false =>
      rw [List.filter_cons_of_pos (by simp [hct]), List.foldl_cons, if_neg Bool.false_ne_true]

theorem Builder.header_parses {m : HeaderMap} {name : HeaderName} {value : String}
    (h : Parses value) :
    Builder.header (some m) name.text value = some (m ++ [(name, ⟨value, h⟩)]) := by
  simp [Builder.header, HeaderName.fromBytes_text, HeaderValue.fromStr_parses h, HeaderMap.append]

theorem Builder.header_fails {b : Builder} {name : HeaderName} {value : String}
    (h : ¬ Parses value) : Builder.header b name.text value = none := by
  cases b <;>
    simp [Builder.header, HeaderName.fromBytes_text, HeaderValue.fromStr_none h]

/-- A builder that has met an error stays so. -/
theorem Builder.foldl_none (headers : List (HeaderName × String)) :
    headers.foldl (fun builder h => Builder.header builder h.1.text h.2) none = none := by
  induction headers with
  | nil => rfl
  | cons h hs ih => exact ih

/-- One value that does not parse is enough to lose the builder. -/
theorem Builder.foldl_header (headers : List (HeaderName × String)) (m : HeaderMap) :
    headers.foldl (fun builder h => Builder.header builder h.1.text h.2) (some m) =
      if ∀ h ∈ headers, Parses h.2 then some (m ++ parsed headers) else none := by
  induction headers generalizing m with
  | nil => simp [parsed]
  | cons h hs ih =>
    rw [List.foldl_cons]
    by_cases hp : Parses h.2
    · have hall : (∀ h' ∈ h :: hs, Parses h'.2) ↔ ∀ h' ∈ hs, Parses h'.2 := by
        rw [List.forall_mem_cons]
        exact and_iff_right hp
      rw [header_parses hp, ih, if_congr hall rfl rfl]
      simp [parsed, HeaderValue.fromStr_parses hp]
    · rw [header_fails hp, foldl_none, if_neg]
      intro hall
      exact hp (hall h List.mem_cons_self)

/-- Salvo adds the headers that parse. -/
theorem foldl_appendParsed (headers : List (HeaderName × String)) (m : HeaderMap) :
    headers.foldl (fun m h => HeaderMap.appendParsed m h.1 h.2) m = m ++ parsed headers := by
  induction headers generalizing m with
  | nil => simp [parsed]
  | cons h hs ih =>
    rw [List.foldl_cons, ih]
    cases hv : HeaderValue.fromStr h.2 <;>
      simp [parsed, hv, HeaderMap.appendParsed, HeaderMap.append]

/-- The same status, the same headers up to their order, the same bytes. -/
structure HttpResponse.Same (a b : HttpResponse) : Prop where
  status : a.status = b.status
  headers : a.headers.Perm b.headers
  body : a.body = b.body

section
variable {toVec : Json → Except String Bytes} {resp : Response}

theorem effectiveContentType_parses
    (h : ∀ contentType, resp.contentType = some contentType → Parses contentType) :
    Parses resp.effectiveContentType := by
  unfold Response.effectiveContentType
  cases hc : resp.contentType with
  | some contentType => exact h contentType hc
  | none =>
    cases resp.body with
    | json => exact (by decide : Parses "application/json; charset=utf-8")
    | empty | bytes => exact (by decide : Parses "text/plain; charset=utf-8")

/-- The builder of the Axum adapter holds the content type and the other headers, or nothing. -/
theorem axum_builder (resp : Response) :
    resp.headers.foldl (fun builder h =>
        if eqIgnoreAsciiCase h.1.text "content-type" then builder
        else Builder.header builder h.1.text h.2)
      (Builder.header (some []) "content-type" resp.effectiveContentType) =
      if h : Parses resp.effectiveContentType then
        if ∀ h ∈ resp.others, Parses h.2 then
          some ((.CONTENT_TYPE, ⟨resp.effectiveContentType, h⟩) :: parsed resp.others)
        else none
      else none := by
  rw [foldl_others (fun builder h => Builder.header builder h.1.text h.2)]
  change List.foldl _ (Builder.header (some []) HeaderName.CONTENT_TYPE.text _) _ = _
  split
  · rename_i h
    rw [Builder.header_parses h, Builder.foldl_header]
    rfl
  · rename_i h
    rw [Builder.header_fails h, Builder.foldl_none]

/-- The headers of the Salvo adapter. -/
theorem salvo_headers (resp : Response) (m : HeaderMap) :
    resp.headers.foldl (fun m h => if eqIgnoreAsciiCase h.1.text "content-type" then m
      else HeaderMap.appendParsed m h.1 h.2) m = m ++ parsed resp.others := by
  rw [foldl_others (fun m h => HeaderMap.appendParsed m h.1 h.2), foldl_appendParsed]

theorem responseToAxum_wellFormed {bytes : Bytes} (h : resp.WellFormed toVec)
    (hbytes : resp.readBytes toVec = .ok bytes) :
    responseToAxum toVec resp = { status := resp.status, body := bytes, headers :=
      (.CONTENT_TYPE, ⟨_, effectiveContentType_parses h.contentType⟩) :: parsed resp.others } := by
  simp only [responseToAxum, hbytes]
  rw [axum_builder, dif_pos (effectiveContentType_parses h.contentType), if_pos h.values]

theorem renderResponse_wellFormed {bytes : Bytes} (h : resp.WellFormed toVec)
    (hbytes : resp.readBytes toVec = .ok bytes) :
    renderResponse toVec resp {} = { status := resp.status, body := bytes, headers :=
      (.CONTENT_TYPE, ⟨_, effectiveContentType_parses h.contentType⟩) :: parsed resp.others } := by
  simp only [renderResponse, hbytes,
    HeaderValue.fromStr_parses (effectiveContentType_parses h.contentType), Option.getD_some]
  rw [salvo_headers]
  rfl

/-- Where something cannot be sent, the Axum adapter sends no header at all. -/
theorem responseToAxum_headers_nil (h : ¬ resp.WellFormed toVec) :
    (responseToAxum toVec resp).headers = [] := by
  unfold responseToAxum
  cases hb : resp.readBytes toVec with
  | error e => rfl
  | ok bytes =>
    simp only
    rw [axum_builder]
    by_cases hct : Parses resp.effectiveContentType
    · have hvalues : ¬ ∀ h ∈ resp.others, Parses h.2 := by
        intro hvalues
        apply h
        refine ⟨⟨bytes, hb⟩, ?_, hvalues⟩
        intro contentType hc
        rw [Response.effectiveContentType, hc] at hct
        exact hct
      rw [dif_pos hct, if_neg hvalues]
    · rw [dif_neg hct]

/-- The Salvo adapter always sends a content type. -/
theorem renderResponse_headers_ne_nil : (renderResponse toVec resp {}).headers ≠ [] := by
  have hne : ∀ m : HeaderMap, m ≠ [] → m ++ parsed resp.others ≠ [] := by
    intro m hm
    exact List.append_ne_nil_of_left_ne_nil hm _
  unfold renderResponse
  cases resp.readBytes toVec with
  | error e | ok bytes =>
    simp only
    rw [salvo_headers]
    exact hne _ (List.append_ne_nil_of_right_ne_nil _ (List.cons_ne_nil _ _))

/-- The adapters send the same response exactly where the body serialises and the content
type and every other header value are free of control characters. -/
theorem same_response_iff (toVec : Json → Except String Bytes) (resp : Response) :
    (responseToAxum toVec resp).Same (renderResponse toVec resp {}) ↔ resp.WellFormed toVec := by
  constructor
  · intro hsame
    by_contra h
    have hperm := hsame.headers
    rw [responseToAxum_headers_nil h] at hperm
    exact renderResponse_headers_ne_nil hperm.symm.eq_nil
  · intro h
    obtain ⟨bytes, hbytes⟩ := h.body
    rw [responseToAxum_wellFormed h hbytes, renderResponse_wellFormed h hbytes]
    exact ⟨rfl, .refl _, rfl⟩

end

/-- A 404 that quotes what was asked for, with a line break, in a header. -/
def Response.quoting : Response :=
  ((Response.setStatus {} 404).setTextBody "no such book").insertHeader "x-title" "a\nb"

/-- Axum sends an empty 200 for it, Salvo the 404 without the header. -/
theorem response_quoting_differs :
    (responseToAxum (fun _ => .ok []) .quoting).status = 200 ∧
      (renderResponse (fun _ => .ok []) .quoting {}).status = 404 ∧
      ¬ (responseToAxum (fun _ => .ok []) .quoting).Same
        (renderResponse (fun _ => .ok []) .quoting {}) := by
  have haxum : (responseToAxum (fun _ => .ok []) .quoting).status = 200 := by decide
  have hsalvo : (renderResponse (fun _ => .ok []) .quoting {}).status = 404 := by decide
  refine ⟨haxum, hsalvo, ?_⟩
  intro hsame
  have hstatus := hsame.status
  rw [haxum, hsalvo] at hstatus
  exact absurd hstatus (by decide)

end Webshelf.Adapters
