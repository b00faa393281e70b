import PaySystem.Pagination.Service

/-!
# Walking through the pages

From page 1 on, the links to the next page lead through the whole list: the pages are the chunks of
the list, and the link back leads from each page to the one before.
-/

namespace PaySystem

open Text

variable {α : Type} {allItems : List α} {size i : ℕ} {svc : PaginationService} {baseUrl : String}

/-- The pages that are met from a service on by following `next_page`, if this ends within `n`
pages. -/
def PaginationService.traverse (st : Starlette) (allItems : List α) :
    ℕ → PaginationService → Option (List (PaginatedResponse α))
  | 0, _ => none
  | n + 1, svc => do
    let page ← svc.buildPaginatedResponse allItems
    match page.nextPage with
    | none => some [page]
    | some link => do
      let svc' ← PaginationService.init st (PageRequest.get link)
      let pages ← svc'.traverse st allItems n
      some (page :: pages)

/-! ## One page -/

/-- The number of pages of `total` items. -/
def pageCount (total size : ℕ) : ℕ := (total + size - 1) / size

/-- The page with the index `i`, which starts at 0. -/
def pageAt (baseUrl : String) (allItems : List α) (size i : ℕ) : PaginatedResponse α where
  items := (allItems.drop (i * size)).take size
  total := allItems.length
  page := i + 1
  pageSize := size
  prevPage := if 0 < i then some (pageUrl baseUrl i size) else none
  nextPage :=
    if i + 1 < pageCount allItems.length size then some (pageUrl baseUrl (i + 2) size) else none

theorem totalPages_eq (total : ℕ) (hsize : 1 ≤ size) :
    totalPages total size = some (pageCount total size : ℤ) := by
  unfold totalPages pageCount floorDiv
  have hne : (size : ℤ) ≠ 0 := by omega
  split_ifs with htotal
  · have hcast : (total + size - 1 : ℤ) = ((total + size - 1 : ℕ) : ℤ) := by omega
    rw [hcast, Int.fdiv_eq_ediv_of_nonneg _ (by omega), Int.natCast_div]
  · have hzero : (total + size - 1) / size = 0 := Nat.div_eq_of_lt (by omega)
    rw [hzero, Nat.cast_zero]

theorem mul_size_lt {total : ℕ} (hsize : 1 ≤ size) (h : i < pageCount total size) :
    i * size < total := by
  have hmul := Nat.mul_le_of_le_div size (i + 1) _ h
  rw [Nat.succ_mul] at hmul
  omega

theorem le_mul_pageCount (total : ℕ) (hsize : 1 ≤ size) :
    total ≤ pageCount total size * size := by
  have hlt := Nat.lt_div_mul_add (a := total + size - 1) hsize
  unfold pageCount
  omega

/-- The service answers with the page of its number. -/
theorem build_eq_pageAt (hsize : 1 ≤ size) (hpage : svc.page = i + 1) (hps : svc.pageSize = size) :
    svc.buildPaginatedResponse allItems =
      some (pageAt (before '?' svc.request.url) allItems size i) := by
  have hitems : slice allItems ((i : ℤ) * size) (i * size + size) =
      (allItems.drop (i * size)).take size := by
    rw [← Nat.cast_mul, ← Nat.cast_add, slice_eq_window _ (Int.natCast_nonneg _)
      (Int.natCast_nonneg _), window_eq, Int.toNat_natCast, Int.toNat_natCast, List.drop_take,
      Nat.add_sub_cancel_left]
  have hprev : ((i : ℤ) + 1 > 1) ↔ 0 < i := by omega
  have hnext : ((i : ℤ) + 1 < (pageCount allItems.length size : ℕ)) ↔
      i + 1 < pageCount allItems.length size := by omega
  have htwo : (i : ℤ) + 1 + 1 = i + 2 := by omega
  simp only [PaginationService.buildPaginatedResponse, hpage, hps, totalPages_eq _ hsize, hitems,
    hprev, hnext, htwo, add_sub_cancel_right, Option.bind_eq_bind, Option.bind_some]
  rfl

/-! ## All pages -/

/-- The number of pages that the walk meets: an empty list has a first page, too. -/
def visited (total size : ℕ) : ℕ := max 1 (pageCount total size)

/-- Following a link from page `i + 1` leads to the service of page `j + 1`. -/
theorem build_follow (st : Starlette) (allItems : List α) (request : PageRequest)
    (hsize : 1 ≤ size) (j : ℕ) :
    ∃ svc', PaginationService.init st
        (PageRequest.get (pageUrl (before '?' request.url) (j + 1) size)) = some svc' ∧
      svc'.page = j + 1 ∧ svc'.pageSize = size ∧
      before '?' svc'.request.url = before '?' request.url ∧
      svc'.buildPaginatedResponse allItems =
        some (pageAt (before '?' request.url) allItems size j) := by
  have hq : '?' ∉ (before '?' request.url).toList := not_mem_before _ _
  have hbase := before_url_get_pageUrl (j + 1) size hq
  refine ⟨_, init_get_pageUrl st _ _ hq, rfl, rfl, hbase, ?_⟩
  rw [build_eq_pageAt hsize rfl rfl, hbase]

/-- The walk from page `i + 1` on, by induction on the number of pages after it. -/
theorem traverse_eq (st : Starlette) (allItems : List α) (hsize : 1 ≤ size) (n : ℕ)
    (hpage : svc.page = i + 1) (hps : svc.pageSize = size)
    (hn : i + n + 1 = visited allItems.length size) :
    svc.traverse st allItems (n + 1) = some ((List.range' i (n + 1)).map
      (pageAt (before '?' svc.request.url) allItems size)) := by
  unfold visited at hn
  induction n generalizing i svc with
  | zero =>
    have hlast : ¬ i + 1 < pageCount allItems.length size := by omega
    simp [PaginationService.traverse, build_eq_pageAt hsize hpage hps, pageAt, hlast]
  | succ n ih =>
    have hnext : i + 1 < pageCount allItems.length size := by omega
    obtain ⟨svc', hinit, hpage', hps', hbase, -⟩ :=
      build_follow st allItems svc.request hsize (i + 1)
    have hlink : (pageAt (before '?' svc.request.url) allItems size i).nextPage =
        some (pageUrl (before '?' svc.request.url) (((i + 1 : ℕ) : ℤ) + 1) size) := by
      have htwo : (i : ℤ) + 2 = ((i + 1 : ℕ) : ℤ) + 1 := by omega
      simp only [pageAt, if_pos hnext, htwo]
    have hrest := ih hpage' hps' (by omega)
    rw [hbase] at hrest
    rw [PaginationService.traverse, build_eq_pageAt hsize hpage hps]
    simp only [Option.bind_eq_bind, Option.bind_some, hlink, hinit, hrest]
    rfl

section Pages

variable {page page' : PaginatedResponse α}

/-- The pages that the walk meets. -/
def pagesOf (baseUrl : String) (allItems : List α) (size : ℕ) : List (PaginatedResponse α) :=
  (List.range (visited allItems.length size)).map (pageAt baseUrl allItems size)

theorem flatten_items_pagesOf (baseUrl : String) (allItems : List α) (hsize : 1 ≤ size) :
    ((pagesOf baseUrl allItems size).map PaginatedResponse.items).flatten = allItems := by
  have hall : allItems.length ≤ visited allItems.length size * size :=
    (le_mul_pageCount allItems.length hsize).trans (Nat.mul_le_mul_right _ (le_max_right _ _))
  rw [pagesOf, List.map_map, List.range_eq_range']
  refine (flatten_chunks allItems size 0 _).trans ?_
  rw [zero_mul, List.drop_zero, List.take_of_length_le hall]

theorem getElem?_pagesOf (h : (pagesOf baseUrl allItems size)[i]? = some page) :
    i < visited allItems.length size ∧ page = pageAt baseUrl allItems size i := by
  rw [pagesOf, List.getElem?_map, Option.map_eq_some_iff] at h
  obtain ⟨j, hj, rfl⟩ := h
  obtain ⟨hi, rfl⟩ := List.getElem?_eq_some_iff.1 hj
  rw [List.length_range] at hi
  exact ⟨hi, by rw [List.getElem_range]⟩

theorem mem_pagesOf (h : page ∈ pagesOf baseUrl allItems size) :
    ∃ i, page = pageAt baseUrl allItems size i := by
  obtain ⟨i, hi⟩ := List.mem_iff_getElem?.1 h
  exact ⟨i, (getElem?_pagesOf hi).2⟩

/-- All pages but the last one are full. -/
theorem length_items_of_mem_dropLast (hsize : 1 ≤ size)
    (h : page ∈ (pagesOf baseUrl allItems size).dropLast) : page.items.length = size := by
  obtain ⟨i, hi, rfl⟩ := List.mem_iff_getElem.1 h
  rw [List.length_dropLast, pagesOf, List.length_map, List.length_range, visited] at hi
  have hlt : i + 1 < pageCount allItems.length size := by omega
  have hfull := mul_size_lt hsize hlt
  rw [Nat.succ_mul] at hfull
  rw [List.getElem_dropLast]
  simp only [pagesOf, List.getElem_map, List.getElem_range, pageAt, List.length_take,
    List.length_drop]
  omega

end Pages

/-- **Pagination walks through the list exactly.** From page 1 on, following `next_page` ends, and
the pages that it meets make up the list; all but the last are full, all have the same size and
total, and `prev_page` leads back from each to the one before. -/
theorem pagination_traverses (st : Starlette) (allItems : List α) (svc : PaginationService)
    (hpage : svc.page = 1) (hsize : 1 ≤ svc.pageSize) :
    ∃ n pages, svc.traverse st allItems n = some pages ∧
      (pages.map PaginatedResponse.items).flatten = allItems ∧
      (∀ page ∈ pages.dropLast, (page.items.length : ℤ) = svc.pageSize) ∧
      (∀ page ∈ pages, page.pageSize = svc.pageSize ∧ page.total = allItems.length) ∧
      ∀ i page page', pages[i]? = some page → pages[i + 1]? = some page' →
        ∃ link svc', page'.prevPage = some link ∧
          PaginationService.init st (PageRequest.get link) = some svc' ∧
          svc'.buildPaginatedResponse allItems = some page := by
  obtain ⟨size, hps⟩ := Int.eq_ofNat_of_zero_le (show 0 ≤ svc.pageSize by omega)
  have hsize : 1 ≤ size := by omega
  have hvisited : 0 < visited allItems.length size := lt_of_lt_of_le one_pos (le_max_left _ _)
  refine ⟨visited allItems.length size, pagesOf (before '?' svc.request.url) allItems size, ?_,
    flatten_items_pagesOf _ _ hsize, ?_, ?_, ?_⟩
  · have hwalk := traverse_eq (i := 0) st allItems hsize
      (visited allItems.length size - 1) (by simpa using hpage) hps (by omega)
    rw [Nat.sub_add_cancel hvisited] at hwalk
    rw [hwalk, pagesOf, List.range_eq_range']
  · intro page hp
    rw [hps, length_items_of_mem_dropLast hsize hp]
  · intro page hp
    obtain ⟨i, rfl⟩ := mem_pagesOf hp
    exact ⟨hps.symm, rfl⟩
  · intro i page page' hp hp'
    obtain ⟨-, rfl⟩ := getElem?_pagesOf hp
    obtain ⟨-, rfl⟩ := getElem?_pagesOf hp'
    obtain ⟨svc', hinit, -, -, -, hbuild⟩ :=
      build_follow st allItems svc.request hsize i
    refine ⟨_, svc', ?_, hinit, hbuild⟩
    simp [pageAt]

/-- The service of the first page, with two items on a page. -/
def samplePagination : PaginationService :=
  ⟨1, 2, PageRequest.get "http://localhost/orders?page_size=2"⟩

example : ((PaginationService.init .plain samplePagination.request).map fun svc =>
    (svc.page, svc.pageSize)) = some (1, 2) := by
  decide +kernel

theorem pagination_traverses_sample :
    ∃ n pages, samplePagination.traverse .plain [10, 20, 30] n = some pages ∧
      (pages.map PaginatedResponse.items).flatten = [10, 20, 30] ∧
      (∀ page ∈ pages.dropLast, (page.items.length : ℤ) = samplePagination.pageSize) ∧
      (∀ page ∈ pages, page.pageSize = samplePagination.pageSize ∧
        page.total = [10, 20, 30].length) ∧
      ∀ i page page', pages[i]? = some page → pages[i + 1]? = some page' →
        ∃ link svc', page'.prevPage = some link ∧
          PaginationService.init .plain (PageRequest.get link) = some svc' ∧
          svc'.buildPaginatedResponse [10, 20, 30] = some page :=
  pagination_traverses .plain [10, 20, 30] samplePagination rfl (by decide)

end PaySystem
