import Webshelf.Adapters.Response

/-!
# The CORS policies of the two servers

`configure_cors` of Axum keeps the configured origins that parse as a header value,
`CorsConfig::from_origins` of Salvo those that are `*` or begin with a scheme. What
they make of the origins they keep is the same, but tower-http takes no `*` in a list,
and Salvo panics at a string that is no header value. So the two policies are there
and agree exactly if no origin is `*` and those that parse are those with a scheme.
-/

namespace Webshelf

open Adapters (HeaderValue)

namespace Cors

inductive Method where
  | get
  | post
  | put
  | delete
  | patch
  | options
  deriving DecidableEq

inductive AllowOrigin where
  | any
  | list (origins : List HeaderValue)
  deriving DecidableEq

/-- What both frameworks are given; all headers are allowed. Without `allow_origin` no origin
is. -/
structure Policy where
  allowOrigin : Option AllowOrigin
  methods : List Method
  deriving DecidableEq

/-- Whether the `Origin` of a request is allowed: a listed origin is compared with it. -/
def Policy.allows (p : Policy) (origin : HeaderValue) : Bool :=
  match p.allowOrigin with
  | none => false
  | some .any => true
  | some (.list origins) => origins.contains origin

def allMethods : List Method := [.get, .post, .put, .delete, .patch, .options]

def wildcard : HeaderValue := ⟨"*", by decide⟩

/-- `AllowOrigin::list` of tower-http; it panics on a wildcard. -/
def AllowOrigin.ofList (origins : List HeaderValue) : Option AllowOrigin :=
  if origins.contains wildcard then none else some (.list origins)

/-- Axum; `none` where building the layer panics. -/
def configureCors (allowedOrigins : List String) (env : String) : Option Policy :=
  let useAny : Policy := { allowOrigin := some .any, methods := allMethods }
  let restrictive : Policy := { allowOrigin := none, methods := [.options] }
  if allowedOrigins.isEmpty then
    if env != "development" then some restrictive else some useAny
  else
    let origins := allowedOrigins.filterMap HeaderValue.fromStr
    if origins.isEmpty then
      if env != "development" then some restrictive else some useAny
    else (AllowOrigin.ofList origins).map fun allowOrigin =>
      { allowOrigin := some allowOrigin, methods := allMethods }

/-- Salvo. -/
structure CorsConfig where
  allowedOrigins : List String
  allowAnyOrigin : Bool

/-- The origins that `from_origins` keeps. -/
def hasScheme (origin : String) : Bool :=
  origin == "*" || "http://".toList.isPrefixOf origin.toList ||
    "https://".toList.isPrefixOf origin.toList

def CorsConfig.fromOrigins (origins : List String) (env : String) : CorsConfig :=
  if origins.isEmpty then
    if env == "development" then { allowedOrigins := [], allowAnyOrigin := true }
    else { allowedOrigins := [], allowAnyOrigin := false }
  else
    let valid := origins.filter hasScheme
    if valid.isEmpty && env == "development" then { allowedOrigins := [], allowAnyOrigin := true }
    else { allowedOrigins := valid, allowAnyOrigin := false }

/-- `From<&Vec<String>> for AllowOrigin` of Salvo: a string that is no header value panics, and
`list` has the rest. -/
def AllowOrigin.ofStrings (list : List HeaderValue → Option AllowOrigin) (origins : List String) :
    Option AllowOrigin :=
  (origins.mapM HeaderValue.fromStr).bind list

/-- `into_handler`, where `list` is `AllowOrigin::list` of Salvo; `none` where it panics. -/
def CorsConfig.intoHandler (list : List HeaderValue → Option AllowOrigin) (config : CorsConfig) :
    Option Policy :=
  if config.allowAnyOrigin then some { allowOrigin := some .any, methods := allMethods }
  else if config.allowedOrigins.isEmpty then
    some { allowOrigin := none, methods := [.options] }
  else (AllowOrigin.ofStrings list config.allowedOrigins).map fun allowOrigin =>
    { allowOrigin := some allowOrigin, methods := allMethods }

/-! ### One decision -/

def parses (origin : String) : Bool := (HeaderValue.fromStr origin).isSome

/-- What both make of the origins that are kept. -/
def decideOn (list : List HeaderValue → Option AllowOrigin) (kept : List HeaderValue)
    (env : String) : Option Policy :=
  if kept = [] then
    if env = "development" then some { allowOrigin := some .any, methods := allMethods }
    else some { allowOrigin := none, methods := [.options] }
  else (list kept).map fun allowOrigin =>
    { allowOrigin := some allowOrigin, methods := allMethods }

variable {list : List HeaderValue → Option AllowOrigin} {origins : List String}
  {kept kept' : List HeaderValue} {env : String} {origin : HeaderValue} {p q : Policy}

theorem fromStr_text (origin : HeaderValue) : HeaderValue.fromStr origin.text = some origin :=
  dif_pos origin.printable

theorem text_of_fromStr {o : String} (h : HeaderValue.fromStr o = some origin) :
    origin.text = o := by
  unfold HeaderValue.fromStr at h
  split at h
  · cases h
    rfl
  · cases h

theorem mem_parsed : origin ∈ origins.filterMap HeaderValue.fromStr ↔ origin.text ∈ origins := by
  rw [List.mem_filterMap]
  constructor
  · rintro ⟨o, ho, h⟩
    rwa [text_of_fromStr h]
  · intro ho
    exact ⟨origin.text, ho, fromStr_text origin⟩

/-- Strings that all parse are the texts of what they parse to. -/
theorem mapM_fromStr (h : origins.mapM HeaderValue.fromStr = some kept) :
    kept.map (·.text) = origins := by
  induction origins generalizing kept with
  | nil =>
    cases h
    rfl
  | cons o origins ih =>
    rw [List.mapM_cons] at h
    obtain ⟨v, hv, h⟩ := Option.bind_eq_some_iff.mp h
    obtain ⟨rest, hrest, h⟩ := Option.bind_eq_some_iff.mp h
    cases h
    rw [List.map_cons, text_of_fromStr hv, ih hrest]

theorem mapM_fromStr_text : (kept.map (·.text)).mapM HeaderValue.fromStr = some kept := by
  induction kept with
  | nil => rfl
  | cons v kept ih =>
    rw [List.map_cons, List.mapM_cons, fromStr_text, ih]
    rfl

theorem map_text_filterMap (origins : List String) :
    (origins.filterMap HeaderValue.fromStr).map (·.text) = origins.filter parses := by
  induction origins with
  | nil => rfl
  | cons o origins ih =>
    cases ho : HeaderValue.fromStr o with
    | none =>
      have hno : ¬ parses o = true := by simp [parses, ho]
      rw [List.filterMap_cons_none ho, List.filter_cons_of_neg hno, ih]
    | some v =>
      have hyes : parses o = true := by simp [parses, ho]
      rw [List.filterMap_cons_some ho, List.filter_cons_of_pos hyes, List.map_cons,
        text_of_fromStr ho, ih]

theorem configureCors_eq (origins : List String) (env : String) :
    configureCors origins env =
      decideOn AllowOrigin.ofList (origins.filterMap HeaderValue.fromStr) env := by
  unfold configureCors decideOn
  cases origins with
  | nil => by_cases henv : env = "development" <;> simp [henv]
  | cons o origins =>
    by_cases henv : env = "development" <;>
      cases (o :: origins).filterMap HeaderValue.fromStr <;> simp [henv]

theorem intoHandler_eq (list : List HeaderValue → Option AllowOrigin) (origins : List String)
    (env : String) : (CorsConfig.fromOrigins origins env).intoHandler list =
      ((origins.filter hasScheme).mapM HeaderValue.fromStr).bind fun kept =>
        decideOn list kept env := by
  have hlisted : ∀ o schemed, AllowOrigin.ofStrings list (o :: schemed) =
      ((o :: schemed).mapM HeaderValue.fromStr).bind list := fun _ _ => rfl
  have hkept : ∀ o schemed kept, (o :: schemed).mapM HeaderValue.fromStr = some kept →
      kept ≠ [] := by
    rintro o schemed kept h rfl
    cases mapM_fromStr h
  unfold CorsConfig.fromOrigins CorsConfig.intoHandler decideOn
  cases origins with
  | nil => by_cases henv : env = "development" <;> simp [henv]
  | cons o origins =>
    cases (o :: origins).filter hasScheme with
    | nil => by_cases henv : env = "development" <;> simp [henv]
    | cons o' schemed =>
      cases hm : (o' :: schemed).mapM HeaderValue.fromStr with
      | none => simp [hlisted, hm]
      | some kept => simp [hlisted, hm, hkept o' schemed kept hm]

/-- The same request origins and the same methods. -/
def Agree (p q : Policy) : Prop :=
  (∀ origin : HeaderValue, p.allows origin = q.allows origin) ∧ p.methods = q.methods

theorem decideOn_nil (list : List HeaderValue → Option AllowOrigin) (env : String) :
    decideOn list [] env = some { allowOrigin := some .any, methods := allMethods } ∨
      decideOn list [] env = some { allowOrigin := none, methods := [.options] } := by
  by_cases henv : env = "development"
  · exact Or.inl (by simp [decideOn, henv])
  · exact Or.inr (by simp [decideOn, henv])

theorem decideOn_list (h : kept ≠ []) (hlist : list kept = some (.list kept)) (env : String) :
    decideOn list kept env = some { allowOrigin := some (.list kept), methods := allMethods } := by
  rw [decideOn, if_neg h, hlist, Option.map_some]

/-- Some origin is in no list. -/
theorem exists_unlisted (kept : List HeaderValue) :
    ∃ origin : HeaderValue, kept.contains origin = false := by
  have hprintable : ∀ n, (String.ofList (List.replicate n 'x')).toList.all Adapters.isValueChar =
      true := by
    intro n
    rw [String.toList_ofList, List.all_replicate]
    cases n with
    | zero => rfl
    | succ n => simp; decide
  -- one that is longer than all listed ones together
  let length := (kept.map (·.text.toList)).flatten.length
  refine ⟨⟨_, hprintable (length + 1)⟩, ?_⟩
  rw [Bool.eq_false_iff, ne_eq, List.contains_iff_mem]
  intro hmem
  have hmapped : (String.ofList (List.replicate (length + 1) 'x')).toList ∈
      kept.map (·.text.toList) := List.mem_map_of_mem hmem
  have hlen := (List.sublist_flatten_of_mem hmapped).length_le
  rw [String.toList_ofList, List.length_replicate] at hlen
  omega

/-- No list stands for all origins or for none with fewer methods. -/
theorem not_agree_nil (h : Agree { allowOrigin := some (.list kept), methods := allMethods } q)
    (hq : decideOn list [] env = some q) : False := by
  obtain ⟨hallows, hmethods⟩ := h
  rcases decideOn_nil list env with hany | hnone
  · cases hany.symm.trans hq
    obtain ⟨origin, hunlisted⟩ := exists_unlisted kept
    have hsame := hallows origin
    simp only [Policy.allows, hunlisted] at hsame
    cases hsame
  · cases hnone.symm.trans hq
    simp [allMethods] at hmethods

/-- Axum has no policy for a list with a wildcard. -/
theorem no_wildcard (h : configureCors origins env = some p) : "*" ∉ origins := by
  intro hmem
  have hlisted : wildcard ∈ origins.filterMap HeaderValue.fromStr := mem_parsed.mpr hmem
  rw [configureCors_eq, decideOn, if_neg (List.ne_nil_of_mem hlisted), AllowOrigin.ofList,
    if_pos (List.contains_iff_mem.mpr hlisted)] at h
  cases h

theorem ofList_eq (h : wildcard ∉ kept) : AllowOrigin.ofList kept = some (.list kept) :=
  if_neg (by rwa [List.contains_iff_mem])

theorem wildcard_not_parsed (h : "*" ∉ origins) :
    wildcard ∉ origins.filterMap HeaderValue.fromStr :=
  fun hmem => h (mem_parsed.mp hmem)

/-- What both list, both allow. -/
theorem parsed_listed (hwild : "*" ∉ origins) (hp : configureCors origins env = some p)
    (hmem : origin ∈ origins.filterMap HeaderValue.fromStr) :
    p = { allowOrigin := some (.list (origins.filterMap HeaderValue.fromStr))
          methods := allMethods } := by
  rw [configureCors_eq, decideOn_list (List.ne_nil_of_mem hmem)
    (ofList_eq (wildcard_not_parsed hwild))] at hp
  exact (Option.some.inj hp).symm

/-- An origin that Axum lists has the scheme that Salvo asks for. -/
theorem scheme_of_agree (hlist : ∀ kept, wildcard ∉ kept → list kept = some (.list kept))
    (hwild : "*" ∉ origins)
    (hkept : (origins.filter hasScheme).mapM HeaderValue.fromStr = some kept)
    (hp : configureCors origins env = some p) (hq : decideOn list kept env = some q)
    (hagree : Agree p q) (hmem : origin ∈ origins.filterMap HeaderValue.fromStr) :
    hasScheme origin.text = true := by
  have hschemed : ∀ v ∈ kept, v.text ∈ origins ∧ hasScheme v.text = true := by
    intro v hv
    have htext : v.text ∈ kept.map (·.text) := List.mem_map_of_mem hv
    rw [mapM_fromStr hkept] at htext
    exact List.mem_filter.mp htext
  obtain rfl := parsed_listed hwild hp hmem
  by_cases hnil : kept = []
  · subst hnil
    exact (not_agree_nil hagree hq).elim
  · have hkeptWild : wildcard ∉ kept := fun hw => hwild (hschemed wildcard hw).1
    rw [decideOn_list hnil (hlist kept hkeptWild)] at hq
    cases hq
    have hsame := hagree.1 origin
    simp only [Policy.allows, List.contains_iff_mem.mpr hmem] at hsame
    exact (hschemed origin (List.contains_iff_mem.mp hsame.symm)).2

/-- **When the CORS policies agree.** Where the list of Salvo takes any origins but a wildcard:
for any configured origins and environment both servers have a policy, and the two allow the same
request origins and methods, exactly if no origin is `*` and those that parse are those with a
scheme. -/
theorem policies_agree_iff (list : List HeaderValue → Option AllowOrigin)
    (hlist : ∀ kept, wildcard ∉ kept → list kept = some (.list kept))
    (origins : List String) (env : String) :
    (∃ p q, configureCors origins env = some p ∧
      (CorsConfig.fromOrigins origins env).intoHandler list = some q ∧
      (∀ origin : HeaderValue, p.allows origin = q.allows origin) ∧ p.methods = q.methods) ↔
    "*" ∉ origins ∧ ∀ o ∈ origins, parses o = true ↔ hasScheme o = true := by
  constructor
  · rintro ⟨p, q, hp, hq, hagree⟩
    have hwild := no_wildcard hp
    rw [intoHandler_eq] at hq
    obtain ⟨kept, hkept, hq⟩ := Option.bind_eq_some_iff.mp hq
    refine ⟨hwild, fun o ho => ⟨?_, ?_⟩⟩
    · intro hparses
      obtain ⟨v, hv⟩ := Option.isSome_iff_exists.mp hparses
      have hmem : v ∈ origins.filterMap HeaderValue.fromStr := List.mem_filterMap.mpr ⟨o, ho, hv⟩
      rw [← text_of_fromStr hv]
      exact scheme_of_agree hlist hwild hkept hp hq hagree hmem
    · intro hscheme
      have htext : o ∈ kept.map (·.text) := by
        rw [mapM_fromStr hkept]
        exact List.mem_filter.mpr ⟨ho, hscheme⟩
      obtain ⟨v, -, rfl⟩ := List.mem_map.mp htext
      rw [parses, fromStr_text, Option.isSome_some]
  · rintro ⟨hwild, hall⟩
    have hfilter : origins.filter hasScheme =
        (origins.filterMap HeaderValue.fromStr).map (·.text) := by
      rw [map_text_filterMap]
      exact List.filter_congr fun o ho => Bool.eq_iff_iff.mpr (hall o ho).symm
    have hparsed := wildcard_not_parsed hwild
    have hsame : (CorsConfig.fromOrigins origins env).intoHandler list =
        configureCors origins env := by
      rw [intoHandler_eq, configureCors_eq, hfilter, mapM_fromStr_text, Option.bind_some, decideOn,
        decideOn, ofList_eq hparsed, hlist _ hparsed]
    obtain ⟨p, hp⟩ : ∃ p, configureCors origins env = some p := by
      rw [configureCors_eq, decideOn, ofList_eq hparsed]
      split
      · split <;> exact ⟨_, rfl⟩
      · exact ⟨_, rfl⟩
    exact ⟨p, p, hp, hsame.trans hp, fun _ => rfl, rfl⟩

/-- Two sites with a scheme. -/
theorem policies_agree_iff_sites : ∃ p q,
    configureCors ["http://localhost:8080", "https://example.com"] "production" = some p ∧
      (CorsConfig.fromOrigins ["http://localhost:8080", "https://example.com"]
        "production").intoHandler AllowOrigin.ofList = some q ∧
      (∀ origin : HeaderValue, p.allows origin = q.allows origin) ∧ p.methods = q.methods :=
  (policies_agree_iff AllowOrigin.ofList (fun _ h => ofList_eq h)
    ["http://localhost:8080", "https://example.com"] "production").mpr
      ⟨by decide +kernel, by decide +kernel⟩

/-- An origin without a scheme is allowed by Axum and not by Salvo. -/
theorem bare_host_disagrees : ¬ ∃ p q,
    configureCors ["example.com"] "production" = some p ∧
      (CorsConfig.fromOrigins ["example.com"] "production").intoHandler AllowOrigin.ofList =
        some q ∧
      (∀ origin : HeaderValue, p.allows origin = q.allows origin) ∧ p.methods = q.methods := by
  rintro ⟨p, q, hp, hq, -, hmethods⟩
  have hmany : ((configureCors ["example.com"] "production").map (·.methods.length)) =
      some 6 := by
    decide +kernel
  have hone : (((CorsConfig.fromOrigins ["example.com"] "production").intoHandler
      AllowOrigin.ofList).map (·.methods.length)) = some 1 := by
    decide +kernel
  rw [hp, Option.map_some, Option.some.injEq] at hmany
  rw [hq, Option.map_some, Option.some.injEq] at hone
  rw [hmethods, hone] at hmany
  cases hmany

end Cors

end Webshelf
