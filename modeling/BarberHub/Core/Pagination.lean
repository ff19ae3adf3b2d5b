import Mathlib.Data.Rat.Floor

/-!
# Pagination

`app/core/pagination.py`.  Page numbers, limits and offsets have no upper bound
here, and the number of pages is divided exactly.
-/

namespace BarberHub

/-- `PageParams`, as `page_params` lets them through. -/
structure PageParams where
  page : ℕ
  limit : ℕ
  page_pos : 1 ≤ page
  limit_pos : 1 ≤ limit

def PageParams.offset (params : PageParams) : ℕ :=
  (params.page - 1) * params.limit

structure Page (α : Type) where
  items : List α
  total : ℕ
  page : ℕ
  limit : ℕ
  pages : ℕ
  deriving DecidableEq, Repr

def Page.build {α : Type} (items : List α) (total : ℕ) (params : PageParams) :
    Page α where
  items := items
  total := total
  page := params.page
  limit := params.limit
  pages :=
    if params.limit ≠ 0 then ⌈(total / params.limit : ℚ)⌉₊ else 0

end BarberHub
