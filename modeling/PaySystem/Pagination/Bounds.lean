import Mathlib.Tactic.Ring
import PaySystem.Pagination.Service

/-!
# Pages out of range

The service takes any integers for the page and its size. This module says for which of them the
answer is the right one: the service does not raise, the items are those whose index belongs to the
page, and the links lead to pages that there are.
-/

namespace PaySystem

open Text

variable {α : Type} {allItems : List α} {svc : PaginationService} {pages : ℤ}

/-- The link names a page of `total` items between the first and the last. -/
def NamesPage (st : Starlette) (total : ℕ) (pageSize : ℤ) (link : String) : Prop :=
  ∃ svc' pages, PaginationService.init st (PageRequest.get link) = some svc' ∧
    totalPages total pageSize = some pages ∧ 1 ≤ svc'.page ∧ svc'.page ≤ pages

/-- The answer of the service is right: it does not raise, the items are those of the page, and the
links name pages. -/
def PaginationService.Safe (st : Starlette) (allItems : List α) (svc : PaginationService) : Prop :=
  ∃ response, svc.buildPaginatedResponse allItems = some response ∧
    response.items =
      window allItems ((svc.page - 1) * svc.pageSize) (svc.page * svc.pageSize) ∧
    (∀ link, response.prevPage = some link → NamesPage st allItems.length svc.pageSize link) ∧
    ∀ link, response.nextPage = some link → NamesPage st allItems.length svc.pageSize link

/-- The pages and sizes for which the answer is right, for a list of `total` items. -/
def PageInRange (total : ℕ) (page pageSize : ℤ) : Prop :=
  if 0 < pageSize then 0 ≤ page ∧ (page - 2) * pageSize < total
  else if pageSize = 0 then total = 0 ∧ (page = 0 ∨ page = 1)
  else page = 0 ∨ (page = 1 ∧ total ≤ -pageSize) ∨ (page = 2 ∧ total = 1) ∨
    (page < 0 ∧ page * pageSize + 1 < total)

theorem namesPage_pageUrl_iff (st : Starlette) (request : PageRequest) (page : ℤ) {total : ℕ}
    {pageSize : ℤ} (hpages : totalPages total pageSize = some pages) :
    NamesPage st total pageSize (pageUrl (before '?' request.url) page pageSize) ↔
      1 ≤ page ∧ page ≤ pages := by
  have hinit := init_get_pageUrl st page pageSize (not_mem_before '?' request.url)
  constructor
  · rintro ⟨svc', pages', hinit', hpages', hpage⟩
    rw [hinit, Option.some.injEq] at hinit'
    rw [hpages, Option.some.injEq] at hpages'
    subst hinit' hpages'
    exact hpage
  · exact fun h => ⟨_, pages, hinit, hpages, h⟩

/-- What holds of an optional link. -/
theorem forall_link_iff {c : Prop} [Decidable c] {url : String} {P : String → Prop} :
    (∀ link, (if c then some url else none) = some link → P link) ↔ (c → P url) := by
  by_cases hc : c <;> simp [hc]

/-- The three conditions of a right answer, if the number of pages does not raise. -/
theorem safe_iff_of_totalPages (st : Starlette)
    (hpages : totalPages allItems.length svc.pageSize = some pages) :
    svc.Safe st allItems ↔ SliceExact allItems.length ((svc.page - 1) * svc.pageSize)
      (svc.page * svc.pageSize) ∧ (1 < svc.page → svc.page - 1 ≤ pages) ∧
      (svc.page < pages → 0 ≤ svc.page) := by
  have hstop : (svc.page - 1) * svc.pageSize + svc.pageSize = svc.page * svc.pageSize := by
    rw [sub_mul, one_mul, sub_add_cancel]
  have hlink := fun page => namesPage_pageUrl_iff st svc.request page hpages
  simp only [PaginationService.Safe, PaginationService.buildPaginatedResponse, hpages,
    Option.bind_eq_bind, Option.bind_some, hstop, Option.some.injEq, exists_eq_left',
    slice_eq_window_iff, forall_link_iff, hlink]
  refine and_congr_right fun _ => and_congr ?_ ?_
  · exact imp_congr_right fun hprev => ⟨fun h => h.2, fun h => ⟨by omega, h⟩⟩
  · exact imp_congr_right fun hnext => ⟨fun h => by omega, fun h => ⟨by omega, by omega⟩⟩

/-! ## The three kinds of sizes -/

/-- Without a size, every list but the empty one raises. -/
theorem safe_iff_of_size_zero (st : Starlette) (hsize : svc.pageSize = 0) :
    svc.Safe st allItems ↔ allItems.length = 0 ∧ (svc.page = 0 ∨ svc.page = 1) := by
  rcases Nat.eq_zero_or_pos allItems.length with htotal | htotal
  · have hpages : totalPages allItems.length svc.pageSize = some 0 := by
      rw [totalPages, if_neg (by omega)]
    rw [safe_iff_of_totalPages st hpages, hsize, mul_zero, mul_zero]
    simp only [SliceExact, le_refl, if_true, true_or, true_and, htotal]
    omega
  · have hraise : totalPages allItems.length svc.pageSize = none := by
      rw [totalPages, if_pos htotal, floorDiv, if_pos hsize]
    refine iff_of_false ?_ fun h => htotal.ne' h.1
    rintro ⟨response, hbuild, -⟩
    simp [PaginationService.buildPaginatedResponse, hraise] at hbuild

/-- The number of pages is rounded up. -/
theorem le_totalPages_of_pos (total : ℕ) {pageSize : ℤ} (hsize : 0 < pageSize) :
    ∃ pages, totalPages total pageSize = some pages ∧
      ∀ z, z ≤ pages ↔ z * pageSize ≤ total + pageSize - 1 := by
  refine ⟨(total + pageSize - 1) / pageSize, ?_, fun z => Int.le_ediv_iff_mul_le hsize⟩
  rcases Nat.eq_zero_or_pos total with rfl | htotal
  · rw [totalPages, if_neg (lt_irrefl 0), Int.ediv_eq_zero_of_lt (by omega) (by omega)]
  · rw [totalPages, if_pos htotal, floorDiv, if_neg hsize.ne',
      Int.fdiv_eq_ediv_of_nonneg _ hsize.le]

theorem safe_iff_of_size_pos (st : Starlette) (hsize : 0 < svc.pageSize) :
    svc.Safe st allItems ↔
      0 ≤ svc.page ∧ (svc.page - 2) * svc.pageSize < allItems.length := by
  obtain ⟨pages, hpages, hle⟩ := le_totalPages_of_pos allItems.length hsize
  have hstart : (svc.page - 1) * svc.pageSize = (svc.page - 2) * svc.pageSize + svc.pageSize := by
    ring
  have hnonneg : 0 ≤ pages := (hle 0).2 (by omega)
  rw [safe_iff_of_totalPages st hpages, hle]
  constructor
  · rintro ⟨-, hprev, hnext⟩
    refine ⟨by omega, ?_⟩
    by_cases hpage : 1 < svc.page
    · have := hprev hpage
      omega
    · have hneg : (svc.page - 2) * svc.pageSize < 0 := mul_neg_of_neg_of_pos (by omega) hsize
      omega
  · rintro ⟨hpage, hprev⟩
    refine ⟨?_, fun _ => by omega, fun _ => hpage⟩
    rcases hpage.eq_or_lt with hzero | hpos
    · have hstart : ¬ 0 ≤ (svc.page - 1) * svc.pageSize := by
        rw [← hzero]
        omega
      rw [SliceExact, if_neg hstart, ← hzero, zero_mul, if_pos le_rfl]
      exact Or.inl rfl
    · have hstart : 0 ≤ (svc.page - 1) * svc.pageSize := mul_nonneg (by omega) hsize.le
      rw [SliceExact, if_pos hstart]
      exact Or.inl (mul_nonneg hpage hsize.le)

/-- With a negative size, the formula of the code rounds something else. -/
theorem le_totalPages_of_neg {total : ℕ} {pageSize : ℤ} (htotal : 0 < total)
    (hsize : pageSize < 0) :
    ∃ pages, totalPages total pageSize = some pages ∧
      ∀ z, z ≤ pages ↔ z * -pageSize ≤ 1 - total - pageSize := by
  refine ⟨(1 - total - pageSize) / -pageSize, ?_, fun z => Int.le_ediv_iff_mul_le (by omega)⟩
  have hneg : (1 - total - pageSize : ℤ) = -(total + pageSize - 1) := by ring
  rw [totalPages, if_pos htotal, floorDiv, if_neg hsize.ne, hneg,
    ← Int.fdiv_eq_ediv_of_nonneg _ (by omega), Int.neg_fdiv_neg]

/-- With a negative size, a slice is exact on every page but the first. -/
theorem sliceExact_of_size_neg {total : ℕ} {page pageSize : ℤ} (hsize : pageSize < 0) :
    SliceExact total ((page - 1) * pageSize) (page * pageSize) ↔
      (page = 1 → total ≤ -pageSize) := by
  have hstep : (page - 1) * pageSize = page * pageSize - pageSize := by ring
  rcases lt_trichotomy page 1 with hpage | rfl | hpage
  · have hstop : 0 ≤ page * pageSize := mul_nonneg_of_nonpos_of_nonpos (by omega) hsize.le
    rw [SliceExact, if_pos (by omega)]
    exact iff_of_true (Or.inl hstop) fun h => absurd h hpage.ne
  · rw [SliceExact, sub_self, zero_mul, one_mul, if_pos le_rfl]
    omega
  · have hstart : (page - 1) * pageSize < 0 := mul_neg_of_pos_of_neg (by omega) hsize
    rw [SliceExact, if_neg (by omega), if_neg (by omega)]
    exact iff_of_true (Or.inr (by omega)) fun h => absurd h hpage.ne'

theorem safe_iff_of_size_neg (st : Starlette) (hsize : svc.pageSize < 0) :
    svc.Safe st allItems ↔ svc.page = 0 ∨ (svc.page = 1 ∧ allItems.length ≤ -svc.pageSize) ∨
      (svc.page = 2 ∧ allItems.length = 1) ∨
      (svc.page < 0 ∧ svc.page * svc.pageSize + 1 < allItems.length) := by
  have hbefore : svc.page < 0 → 0 < svc.page * svc.pageSize := fun h =>
    mul_pos_of_neg_of_neg h hsize
  rcases Nat.eq_zero_or_pos allItems.length with htotal | htotal
  · have hpages : totalPages allItems.length svc.pageSize = some 0 := by
      rw [totalPages, if_neg (by omega)]
    rw [safe_iff_of_totalPages st hpages, sliceExact_of_size_neg hsize, htotal]
    omega
  · obtain ⟨pages, hpages, hle⟩ := le_totalPages_of_neg htotal hsize
    rw [safe_iff_of_totalPages st hpages, sliceExact_of_size_neg hsize,
      ← Int.add_one_le_iff (a := svc.page) (b := pages), hle, hle]
    have hprev : (svc.page - 1) * -svc.pageSize =
        (svc.page - 2) * -svc.pageSize - svc.pageSize := by ring
    have hnext : (svc.page + 1) * -svc.pageSize =
        -(svc.page * svc.pageSize) - svc.pageSize := by ring
    have htwo : svc.page = 2 → (svc.page - 2) * -svc.pageSize = 0 := fun h => by
      rw [h, sub_self, zero_mul]
    have hmore : 2 < svc.page → 0 < (svc.page - 2) * -svc.pageSize := fun h =>
      mul_pos (by omega) (by omega)
    rw [hprev, hnext]
    omega

/-- **When pagination is right.** The answer of the service is the right one exactly for the pages
and sizes in range; a size of zero raises, and negative pages or sizes and pages far behind the
last one give wrong items or links, but for a few chances. -/
theorem pagination_safe_iff (st : Starlette) (allItems : List α) (svc : PaginationService) :
    svc.Safe st allItems ↔ PageInRange allItems.length svc.page svc.pageSize := by
  unfold PageInRange
  split_ifs with hpos hzero
  · exact safe_iff_of_size_pos st hpos
  · exact safe_iff_of_size_zero st hzero
  · exact safe_iff_of_size_neg st (by omega)

/-- The size 0, which the service takes from a query, raises. -/
theorem pagination_not_safe : ¬ ∀ (st : Starlette) (allItems : List ℕ) (request : PageRequest)
    (svc : PaginationService), PaginationService.init st request = some svc →
    svc.Safe st allItems := by
  intro h
  have hinit : ((PaginationService.init .plain
      (PageRequest.get "http://localhost/orders?page_size=0")).map fun svc =>
        (svc.page, svc.pageSize)) = some (1, 0) := by
    decide +kernel
  obtain ⟨svc, hsvc, hval⟩ := Option.map_eq_some_iff.1 hinit
  obtain ⟨-, hsize⟩ := Prod.mk.inj hval
  obtain ⟨htotal, -⟩ := (safe_iff_of_size_zero .plain hsize).1 (h .plain [10] _ svc hsvc)
  exact absurd htotal (by decide)

end PaySystem
