import PaySystem.Ledger.Abstraction

/-!
# The books of all orders

The ledgers of all orders together with the deposits that are on their way: all that the admission
checks and the status checks depend on, without the rows and their columns. A change of the database
is one entry of the books.
-/

namespace PaySystem

/-- Who owns an order, and the ledger of the order. -/
structure Account where
  owner : ℕ
  ledger : Ledger ℚ

/-- A deposit on its way. -/
structure Transfer where
  orderId : ℕ
  amount : ℚ

/-- The accounts of the orders, and the deposits on their way, by the ids of the payments. -/
@[ext] structure Books where
  accounts : ℕ → Option Account
  transfers : ℕ → Option Transfer

namespace Books

variable (b : Books)

/-- Move the ledger of an order. -/
def move (orderId : ℕ) (f : Ledger ℚ → Ledger ℚ) : Books :=
  { b with
    accounts := Function.update b.accounts orderId
      ((b.accounts orderId).map fun a => { a with ledger := f a.ledger }) }

/-- The payment `id` becomes `x` on its way. -/
def carry (id : ℕ) (x : Option Transfer) : Books :=
  { b with transfers := Function.update b.transfers id x }

variable {b} {orderId o : ℕ} {f : Ledger ℚ → Ledger ℚ} {id k : ℕ} {x : Option Transfer}

theorem accounts_move_self : (b.move orderId f).accounts orderId =
    (b.accounts orderId).map fun a => { a with ledger := f a.ledger } := Function.update_self ..

theorem accounts_move_of_ne (h : o ≠ orderId) :
    (b.move orderId f).accounts o = b.accounts o := Function.update_of_ne h ..

theorem transfers_carry_self : (b.carry id x).transfers id = x := Function.update_self ..

theorem transfers_carry_of_ne (h : k ≠ id) : (b.carry id x).transfers k = b.transfers k :=
  Function.update_of_ne h ..

/-- A move that changes no ledger. -/
theorem move_eq_self (h : ∀ l, f l = l) : b.move orderId f = b := by
  have hsame : (b.accounts orderId).map (fun a => { a with ledger := f a.ledger }) =
      b.accounts orderId := by
    simp only [h, Option.map_id']
  rw [move, hsame, Function.update_eq_self]

theorem carry_eq_self (h : b.transfers id = x) : b.carry id x = b := by
  rw [carry, ← h, Function.update_eq_self]

variable (b)

/-- A deposit is put on its way. -/
def deposit (id : ℕ) (x : Transfer) : Books :=
  (b.move x.orderId fun l => l.deposit x.amount).carry id (some x)

def payBack (orderId : ℕ) (amount : ℚ) : Books := b.move orderId fun l => l.payBack amount

/-- A deposit arrives. -/
def complete (id : ℕ) (x : Transfer) : Books :=
  (b.move x.orderId fun l => l.complete x.amount).carry id none

/-- A deposit is sent back. -/
def reject (id : ℕ) (x : Transfer) : Books :=
  (b.move x.orderId fun l => l.reject x.amount).carry id none

end Books

variable {types : Set String} {db : Db} {c : Change} {order : Order} {p : Payment} {id : ℕ}

/-- What an open payment puts on its way. -/
def Payment.transfer (p : Payment) : Transfer := ⟨p.orderId, p.amount.toRat⟩

/-- The account of an order. -/
def Db.account (db : Db) (order : Order) : Account := ⟨order.userId, db.ledger order⟩

/-- **The books of a database.** -/
def Db.books (db : Db) : Books where
  accounts orderId := (db.orders.find? orderId).map db.account
  transfers id := ((db.payments.find? id).filter Payment.isOpen).map Payment.transfer

theorem accounts_eq_none_iff : db.books.accounts id = none ↔ db.orders.find? id = none :=
  Option.map_eq_none_iff

theorem accounts_of_find? (h : db.orders.find? id = some order) :
    db.books.accounts id = some (db.account order) :=
  congrArg (Option.map db.account) h

theorem transfers_of_open (h : db.payments.find? p.id = some p) (hopen : p.isOpen = true) :
    db.books.transfers p.id = some p.transfer := by
  change ((db.payments.find? p.id).filter Payment.isOpen).map Payment.transfer = _
  rw [h, Option.filter_some_pos hopen, Option.map_some]

theorem transfers_eq_none_iff :
    db.books.transfers id = none ↔ (db.payments.find? id).filter Payment.isOpen = none :=
  Option.map_eq_none_iff

/-- The books do not know the status of an order. -/
theorem books_updateOrder (db : Db) (orderId : ℕ) (st : String) :
    (db.apply (.updateOrder orderId st)).books = db.books := by
  have hpayments := payments_updateOrder db orderId st
  have haccount : (db.apply (.updateOrder orderId st)).account = db.account := by
    funext order
    simp only [Db.account, Db.ledger, Db.balance, Db.pending, hpayments]
  ext1
  · funext o
    change ((db.apply (.updateOrder orderId st)).orders.find? o).map _ =
      (db.orders.find? o).map db.account
    rw [haccount]
    by_cases ho : orderId = o
    · subst ho
      cases hfind : db.orders.find? orderId with
      | none => simp only [Db.apply, hfind]
      | some order =>
        rw [find?_updateOrder_self hfind]
        rfl
    · rw [find?_updateOrder_of_ne ho]
  · simp only [Db.books, hpayments]

theorem books_orderWrites (db : Db) (order : Order) (st : String) :
    ((Change.orderWrites order st).foldl Db.apply db).books = db.books := by
  unfold Change.orderWrites
  split_ifs
  · rfl
  · exact books_updateOrder db order.id st

namespace Change

/-- The entry that a change makes in the books. -/
def entry : Change → Books → Books
  | deposit _ p, b => b.deposit p.id p.transfer
  | cashReturn _ p _, b => b.payBack p.orderId p.amount.toRat
  | advance p status, b =>
    if status = PaymentStatus.Rejected.value then b.reject p.id p.transfer else b
  | complete _ p _ _, b => b.complete p.id p.transfer

/-- No change makes an order. -/
theorem find?_orders_run_none (c : Change) (h : db.orders.find? id = none) :
    (c.run db).orders.find? id = none := by
  rw [orders_run]
  cases c.assigned with
  | none => exact h
  | some x =>
    obtain ⟨order, st⟩ := x
    simp only [orderWrites]
    split_ifs
    · exact h
    · by_cases hid : order.id = id
      · subst hid
        simp only [List.foldl_cons, List.foldl_nil, Db.apply, h]
      · exact (find?_updateOrder_of_ne hid st).trans h

/-- A change moves the account of its order, and no other one. -/
theorem Allowed.accounts_run (h : c.Allowed types db) (hl : ∀ o, db.LawfulOrder types o) :
    (c.run db).books.accounts = (db.books.move c.row.orderId c.move).accounts := by
  funext o
  change ((c.run db).orders.find? o).map (c.run db).account = _
  cases ho : db.orders.find? o with
  | none =>
    have hnone := accounts_eq_none_iff.2 ho
    rw [find?_orders_run_none c ho, Option.map_none]
    by_cases hid : o = c.row.orderId
    · rw [← hid, Books.accounts_move_self, hnone, Option.map_none]
    · rw [Books.accounts_move_of_ne hid, hnone]
  | some order =>
    obtain ⟨st, hrun⟩ := orders_run_of_find? c ho
    obtain rfl : order.id = o := Table.key_of_find? ho
    rw [hrun]
    change some (⟨order.userId, (c.run db).ledger order⟩ : Account) = _
    by_cases hid : order.id = c.row.orderId
    · rw [← hid, Books.accounts_move_self, accounts_of_find? ho, h.ledger_run (hl _) hid.symm]
      rfl
    · rw [Books.accounts_move_of_ne hid, accounts_of_find? ho, h.ledger_run_of_ne (Ne.symm hid)]
      rfl

/-- A change says of its payment only whether it is on its way. -/
theorem Allowed.transfers_run (h : c.Allowed types db) : (c.run db).books.transfers =
    (db.books.carry c.row.id (if c.row.isOpen then some c.row.transfer else none)).transfers := by
  funext k
  change (((c.run db).payments.find? k).filter Payment.isOpen).map Payment.transfer = _
  rw [h.find?_payments_run]
  by_cases hk : k = c.row.id
  · rw [if_pos hk, hk, Books.transfers_carry_self]
    split_ifs with hopen
    · rw [Option.filter_some_pos hopen, Option.map_some]
    · rw [Option.filter_some_neg (Bool.eq_false_iff.2 hopen), Option.map_none]
  · rw [if_neg hk, Books.transfers_carry_of_ne hk]
    rfl

/-- The entry, by the row that the change writes. -/
theorem Allowed.books_row (h : c.Allowed types db) (hl : ∀ o, db.LawfulOrder types o) :
    (c.run db).books = (db.books.move c.row.orderId c.move).carry c.row.id
      (if c.row.isOpen then some c.row.transfer else none) :=
  Books.ext (h.accounts_run hl) h.transfers_run

/-- **A change is one entry of the books.** -/
theorem Allowed.books_run (h : c.Allowed types db) (hl : ∀ o, db.LawfulOrder types o) :
    (c.run db).books = c.entry db.books := by
  rw [h.books_row hl]
  cases c with
  | deposit order p =>
    obtain ⟨-, -, -, hp⟩ := h
    have hopen : p.isOpen = true := by
      rw [Payment.isOpen_iff, hp.status]
      exact ⟨by decide, by decide, hp.bankPaymentId⟩
    exact congrArg _ (if_pos hopen)
  | cashReturn order p st =>
    obtain ⟨-, -, hfree, hp⟩ := h
    have hclosed : ¬ p.isOpen = true := by
      rw [Payment.isOpen_iff, hp.status]
      exact fun hopen => hopen.1 rfl
    have hnone : db.books.transfers p.id = none := by
      rw [transfers_eq_none_iff, hfree, Option.filter_none]
    exact (congrArg _ (if_neg hclosed)).trans (Books.carry_eq_self hnone)
  | advance p st =>
    obtain ⟨hfind, hopen, -, hcompleted⟩ := h
    by_cases hrejected : st = PaymentStatus.Rejected.value
    · have hclosed : ¬ (advance p st).row.isOpen = true := by
        rw [Payment.isOpen_iff]
        exact fun hopen => hopen.2.1 hrejected
      have hmove : (advance p st).move = fun l => l.reject p.amount.toRat :=
        funext fun _ => if_pos hrejected
      rw [if_neg hclosed, entry, if_pos hrejected, hmove]
      rfl
    · have hstill : (advance p st).row.isOpen = true :=
        Payment.isOpen_iff.2 ⟨hcompleted, hrejected, (Payment.isOpen_iff.1 hopen).2.2⟩
      have hmove : ∀ l, (advance p st).move l = l := fun _ => if_neg hrejected
      have htransfers := transfers_of_open hfind hopen
      rw [if_pos hstill, entry, if_neg hrejected, Books.move_eq_self hmove]
      exact Books.carry_eq_self htransfers
  | complete order p paidAt st =>
    have hclosed : ¬ (complete order p paidAt st).row.isOpen = true := by
      rw [Payment.isOpen_iff]
      exact fun hopen => hopen.1 rfl
    rw [if_neg hclosed]
    rfl

/-- What a completion enters does not depend on the order that it has loaded. -/
theorem books_complete (hl : ∀ o, db.LawfulOrder types o) (hfind : db.payments.find? p.id = some p)
    (hopen : p.isOpen = true) (order : Order) (paidAt : DateTime) (st : String) :
    ((complete order p paidAt st).run db).books = db.books.complete p.id p.transfer := by
  obtain ⟨-, order', ho, -⟩ := hl p.orderId p (Table.mem_of_find? hfind) rfl
  have hid : order'.id = p.orderId := Table.key_of_find? ho
  rw [← hid] at ho
  have hallowed : (complete order' p paidAt order'.paymentStatus).Allowed types db :=
    ⟨hid.symm, ⟨order'.paymentStatus, ho⟩, hfind, hopen⟩
  refine Eq.trans ?_ (hallowed.books_run hl)
  simp only [run, writes, List.foldl_append, books_orderWrites]

end Change

end PaySystem
