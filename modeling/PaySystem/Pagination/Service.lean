import Mathlib.Data.List.Nodup
import PaySystem.Foundations.Slice
import PaySystem.Foundations.Text

/-!
# `PaginationService`

The service reads the page and its size from the query of a request, and answers with a slice of a
list and with links to the pages before and after. A link is text; whoever follows it sends a
request whose query is read again.
-/

namespace PaySystem

open Text

/-! ## Requests -/

/-- A request: `str(request.url)`, whose path is decoded and may hold any character, and the query
that it was sent with. -/
structure PageRequest where
  url : String
  query : String

/-- A request for a link. Its query is what follows the first `?`, also where a `#` stands before
it. -/
def PageRequest.get (link : String) : PageRequest := ⟨link, after '?' link⟩

/-- Characters that stand for themselves in a query. -/
def IsPlain (s : String) : Prop := ∀ c ∈ s.toList, c.isAlphanum = true ∨ c = '_' ∨ c = '-'

instance (s : String) : Decidable (IsPlain s) := List.decidableBAll _ s.toList

/-- A query with the given parameters, for names and values that need no encoding. -/
def queryOf (params : List (String × String)) : String :=
  "&".intercalate (params.map fun x => x.1 ++ "=" ++ x.2)

/-- The part of Starlette that the service uses: `QueryParams(query).get(key)`. Of a query that
needs no decoding it finds the values. -/
structure Starlette where
  queryParam : (query key : String) → Option String
  queryParam_queryOf : ∀ params : List (String × String), (params.map Prod.fst).Nodup →
    (∀ x ∈ params, IsPlain x.1 ∧ IsPlain x.2) → ∀ x ∈ params,
      queryParam (queryOf params) x.1 = some x.2

/-! ## The service -/

/-- `PaginationService`. -/
structure PaginationService where
  page : ℤ
  pageSize : ℤ
  request : PageRequest

/-- `int(request.query_params.get(key, default))`. -/
def PageRequest.intParam (st : Starlette) (request : PageRequest) (key : String) (default : ℤ) :
    Option ℤ :=
  match st.queryParam request.query key with
  | none => some default
  | some s => int s

/-- `PaginationService.__init__`; `none` is the `ValueError` of a parameter that is no integer. -/
def PaginationService.init (st : Starlette) (request : PageRequest) : Option PaginationService := do
  let page ← request.intParam st "page" 1
  let pageSize ← request.intParam st "page_size" 10
  some ⟨page, pageSize, request⟩

/-- The dictionary that `build_paginated_response` returns. -/
structure PaginatedResponse (α : Type) where
  items : List α
  total : ℕ
  page : ℤ
  pageSize : ℤ
  prevPage : Option String
  nextPage : Option String
  deriving DecidableEq

/-- The number of pages; `none` is the `ZeroDivisionError`. -/
def totalPages (total : ℕ) (pageSize : ℤ) : Option ℤ :=
  if 0 < total then floorDiv (total + pageSize - 1) pageSize else some 0

/-- The text of a link. -/
def pageUrl (baseUrl : String) (page pageSize : ℤ) : String :=
  baseUrl ++ "?page=" ++ str page ++ "&page_size=" ++ str pageSize

variable {α : Type}

/-- `build_paginated_response`; `none` is the `ZeroDivisionError`. -/
def PaginationService.buildPaginatedResponse (svc : PaginationService) (allItems : List α) :
    Option (PaginatedResponse α) := do
  let total := allItems.length
  let pages ← totalPages total svc.pageSize
  let offset := (svc.page - 1) * svc.pageSize
  let baseUrl := before '?' svc.request.url
  some {
    items := slice allItems offset (offset + svc.pageSize)
    total := total
    page := svc.page
    pageSize := svc.pageSize
    prevPage := if svc.page > 1 then some (pageUrl baseUrl (svc.page - 1) svc.pageSize) else none
    nextPage :=
      if svc.page < pages then some (pageUrl baseUrl (svc.page + 1) svc.pageSize) else none }

/-! ## Links -/

theorem isPlain_str (z : ℤ) : IsPlain (str z) := by
  intro c hc
  rcases of_mem_str hc with hc | rfl
  · exact Or.inl (by rw [Char.isAlphanum, hc, Bool.or_true])
  · exact Or.inr (Or.inr rfl)

theorem IsPlain.not_mem {s : String} (h : IsPlain s) {c : Char}
    (hc : ¬ (c.isAlphanum = true ∨ c = '_' ∨ c = '-')) : c ∉ s.toList := fun hm => hc (h c hm)

/-- The parameters of a link. -/
def pageParams (page pageSize : ℤ) : List (String × String) :=
  [("page", str page), ("page_size", str pageSize)]

theorem isPlain_pageParams (page pageSize : ℤ) :
    ∀ x ∈ pageParams page pageSize, IsPlain x.1 ∧ IsPlain x.2 := by
  intro x hx
  simp only [pageParams, List.mem_cons, List.not_mem_nil, or_false] at hx
  have hpage : IsPlain "page" := by decide
  have hsize : IsPlain "page_size" := by decide
  rcases hx with rfl | rfl
  · exact ⟨hpage, isPlain_str page⟩
  · exact ⟨hsize, isPlain_str pageSize⟩

section Link

variable {baseUrl : String} {page pageSize : ℤ}

theorem toList_pageUrl : (pageUrl baseUrl page pageSize).toList =
    baseUrl.toList ++ '?' :: (queryOf (pageParams page pageSize)).toList := by
  simp [pageUrl, queryOf, pageParams]

/-- The base URL of the request that a link leads to is the one of the link. -/
theorem before_url_get_pageUrl (page pageSize : ℤ) (h : '?' ∉ baseUrl.toList) :
    before '?' (PageRequest.get (pageUrl baseUrl page pageSize)).url = baseUrl :=
  before_eq toList_pageUrl h

/-- **Links are read back**: following a link gives the service with the page and the size that are
written in it. -/
theorem init_get_pageUrl (st : Starlette) (page pageSize : ℤ) (h : '?' ∉ baseUrl.toList) :
    PaginationService.init st (PageRequest.get (pageUrl baseUrl page pageSize)) =
      some ⟨page, pageSize, PageRequest.get (pageUrl baseUrl page pageSize)⟩ := by
  have hquery : (PageRequest.get (pageUrl baseUrl page pageSize)).query =
      queryOf (pageParams page pageSize) := after_eq toList_pageUrl h
  have hparam := st.queryParam_queryOf (pageParams page pageSize)
    (by simp [pageParams])
    (isPlain_pageParams page pageSize)
  have hpage := hparam ("page", str page) (by simp [pageParams])
  have hsize := hparam ("page_size", str pageSize) (by simp [pageParams])
  simp only [PaginationService.init, PageRequest.intParam, hquery, hpage, hsize, int_str]
  rfl

end Link

/-! ## A small instance -/

/-- The parameters of a query that needs no decoding. -/
def queryParams (query : String) : List (String × String) :=
  (query.toList.splitOn '&').map fun x => (before '=' (.ofList x), after '=' (.ofList x))

theorem queryParams_queryOf {params : List (String × String)} (hne : params ≠ [])
    (h : ∀ x ∈ params, IsPlain x.1 ∧ IsPlain x.2) : queryParams (queryOf params) = params := by
  have hsplit : (queryOf params).toList.splitOn '&' =
      params.map fun x => x.1.toList ++ '=' :: x.2.toList := by
    have hpairs : (params.map fun x => x.1 ++ "=" ++ x.2).map String.toList =
        params.map fun x => x.1.toList ++ '=' :: x.2.toList := by
      rw [List.map_map]
      refine List.map_congr_left fun x _ => ?_
      simp
    rw [queryOf, String.toList_intercalate, hpairs]
    refine List.splitOn_intercalate '&' (fun l hl => ?_) (by simpa using hne)
    obtain ⟨x, hx, rfl⟩ := List.mem_map.1 hl
    have hname : '&' ∉ x.1.toList := (h x hx).1.not_mem (by decide)
    have hvalue : '&' ∉ x.2.toList := (h x hx).2.not_mem (by decide)
    simpa using ⟨hname, hvalue⟩
  rw [queryParams, hsplit, List.map_map]
  conv_rhs => rw [← List.map_id params]
  refine List.map_congr_left fun x hx => ?_
  have hname : '=' ∉ x.1.toList := (h x hx).1.not_mem (by decide)
  exact Prod.ext (before_eq String.toList_ofList hname) (after_eq String.toList_ofList hname)

/-- A query is read without decoding. -/
def Starlette.plain : Starlette where
  queryParam query key := ((queryParams query).reverse.find? fun x => x.1 = key).map Prod.snd
  queryParam_queryOf params hnodup h x hx := by
    rw [queryParams_queryOf (List.ne_nil_of_mem hx) h]
    cases hfind : params.reverse.find? fun y => y.1 = x.1 with
    | none =>
      have hnot := List.find?_eq_none.1 hfind x (List.mem_reverse.2 hx)
      simp at hnot
    | some y =>
      have hy : y ∈ params := List.mem_reverse.1 (List.mem_of_find?_eq_some hfind)
      have hkey : y.1 = x.1 := by simpa using List.find?_some hfind
      rw [List.inj_on_of_nodup_map hnodup hy hx hkey, Option.map_some]

end PaySystem
