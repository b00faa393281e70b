import PaySystem.Sequential.Calls

/-!
# What a failed deposit leaves behind

A deposit writes to three systems in turn: it starts the payment at the bank, commits the row, and
enqueues the check. Until the bank is asked, a failure leaves nothing behind; from then on it
leaves the bank's payment, and a failure of the broker leaves the committed row as well, which the
periodic task will find.
-/

namespace PaySystem

variable {i : ℕ} {env : ℕ → Env} {w w' : World} {payload : PaymentCreate} {userId : ℕ}

/-- The database and the queue are as before. -/
structure World.Unstored (w w' : World) : Prop where
  db : w'.db = w.db
  queue : w'.queue = w.queue

/-- The payment that the bank started as `b` has been stored as `p`. -/
structure World.Stored (w w' : World) (payload : PaymentCreate) (userId : ℕ) (b : String)
    (p : Payment) : Prop where
  payments : w'.db.payments.rows = w.db.payments.rows ++ [p]
  orders : w'.db.orders = w.db.orders
  row : p = newDeposit payload userId PaymentType.ACQUIRING.value b p.id
  bank : w'.bank = w.bank ++ [bankDeposit payload b]

/-- What a deposit leaves behind. Its first two statements read the order and its balance, the third
asks the bank. -/
def DepositLeaves (env : ℕ → Env) (payload : PaymentCreate) (userId : ℕ) (w w' : World) :
    Except Err Payment → Prop
  | .ok p => ∃ b, (env 2).start = .accepted b ∧ w.Stored w' payload userId b p ∧
      w'.queue = w.queue ++ [p.id]
  | .error (.broker _) => ∃ b p, (env 2).start = .accepted b ∧ w.Stored w' payload userId b p ∧
      p.needsCheck = true ∧ w'.queue = w.queue
  | .error (.acquiring e) => w.Unstored w' ∧ ((env 2).start = .refused e ∧ w'.bank = w.bank ∨
      ∃ b, (env 2).start = .lost e b ∧ w'.bank = w.bank ++ [bankDeposit payload b])
  | .error (.database _) => w.Unstored w' ∧
      if (env 0).failure = none ∧ (env 1).failure = none then
        ∃ b, (env 2).start = .accepted b ∧ w'.bank = w.bank ++ [bankDeposit payload b]
      else w'.bank = w.bank
  | .error _ => w.Unstored w' ∧ w'.bank = w.bank

theorem Alone.unstored {ws : List Write} {bank : List BankPayment}
    (h : Alone i w.db ws bank w.queue w') : w.Unstored (w'.close i) :=
  ⟨h.db, h.queue⟩

theorem Alone.stored {order : Order} {b : String} {id : ℕ} {queue : List ℕ}
    (hid : w.db.payments.find? id = none)
    (h : Alone i ((Change.deposit order
      (newDeposit payload userId PaymentType.ACQUIRING.value b id)).run w.db) []
      (w.bank ++ [bankDeposit payload b]) queue w') :
    w.Stored (w'.close i) payload userId b
      (newDeposit payload userId PaymentType.ACQUIRING.value b id) where
  payments := by
    change w'.db.payments.rows = _
    rw [h.db]
    exact Table.insert_rows hid
  orders := by
    change w'.db.orders = _
    rw [h.db]
    rfl
  row := rfl
  bank := h.bank

theorem DepositOutcome.leaves {r : Except Err Payment}
    (h : DepositOutcome env i w payload userId PaymentType.ACQUIRING.value r w') :
    DepositLeaves env payload userId w (w'.close i) r := by
  cases h with
  | failed msg hfail left =>
    have hnot : ¬ ((env 0).failure = none ∧ (env 1).failure = none) := by
      rintro ⟨h₀, h₁⟩
      rw [h₀, h₁] at hfail
      simp at hfail
    refine ⟨left.unstored, ?_⟩
    rw [if_neg hnot]
    exact left.bank
  | notFound _ left => exact ⟨left.unstored, left.bank⟩
  | forbidden _ _ _ left => exact ⟨left.unstored, left.bank⟩
  | overpayment _ _ _ left => exact ⟨left.unstored, left.bank⟩
  | refused e hstart left => exact ⟨left.unstored, .inl ⟨hstart, left.bank⟩⟩
  | lost e b hstart left => exact ⟨left.unstored, .inr ⟨b, hstart, left.bank⟩⟩
  | notStored msg b hsql hstart _ left =>
    refine ⟨left.unstored, ?_⟩
    rw [if_pos hsql]
    exact ⟨b, hstart, left.bank⟩
  | notEnqueued order own _ b hstart id hid msg _ left =>
    exact ⟨b, _, hstart, left.stored hid, rfl, left.queue⟩
  | done order own _ b hstart id hid left =>
    exact ⟨b, hstart, left.stored hid, left.queue⟩

/-- **What a deposit leaves behind**, whether and wherever it fails. -/
theorem deposit_leaves (hw : w.AtRest) (i : ℕ) (env : ℕ → Env) (σ : Session)
    (payload : PaymentCreate) (userId : ℕ) :
    ∃ r w', runAlone (createAcquiringDepositPayment payload userId) i env w σ = some (r, w') ∧
      DepositLeaves env payload userId w w' r := by
  obtain ⟨r, w', hr, hout⟩ := runAlone_createAcquiringPayment hw i env σ payload userId
    PaymentType.ACQUIRING.value
  exact ⟨r, _, hr, hout.leaves⟩

/-- Only the `n`-th statement fails. -/
def sampleFailure (n m : ℕ) : Env :=
  { sampleEnv "a" "completed" with failure := if m = n then some "down" else none }

theorem deposit_leaves_sample :
    ∃ r w', runAlone (createAcquiringDepositPayment sampleHalf 7) 0 (sampleFailure 5) sampleWorld
        .fresh = some (r, w') ∧
      DepositLeaves (sampleFailure 5) sampleHalf 7 sampleWorld w' r :=
  deposit_leaves sampleWorld_atRest 0 (sampleFailure 5) .fresh sampleHalf 7

/-- **A deposit is not atomic.** If the broker fails, the row stays committed; if the commit fails,
the bank keeps a payment that the database does not know. -/
theorem deposit_not_atomic : sampleWorld.AtRest ∧
    (∃ w', runAlone (createAcquiringDepositPayment sampleHalf 7) 0 (sampleFailure 5) sampleWorld
        .fresh = some (.error (.broker "down"), w') ∧
      w'.db.payments.rows ≠ sampleWorld.db.payments.rows) ∧
    ∃ w', runAlone (createAcquiringDepositPayment sampleHalf 7) 0 (sampleFailure 4) sampleWorld
        .fresh = some (.error (.database "down"), w') ∧
      w'.db.payments.rows = [] ∧ sampleWorld.bank = [] ∧ w'.bank = [⟨"a", 1, 30⟩] := by
  have hbroker : ((runAlone (createAcquiringDepositPayment sampleHalf 7) 0 (sampleFailure 5)
      sampleWorld .fresh).map fun x => (x.1, x.2.db.payments.rows.length)) =
        some (.error (.broker "down"), 1) := by
    decide +kernel
  have hcommit : ((runAlone (createAcquiringDepositPayment sampleHalf 7) 0 (sampleFailure 4)
      sampleWorld .fresh).map fun x => (x.1, x.2.db.payments.rows, x.2.bank)) =
        some (.error (.database "down"), [], [⟨"a", 1, 30⟩]) := by
    decide +kernel
  obtain ⟨⟨r, w₁⟩, hr, h₁⟩ := Option.map_eq_some_iff.1 hbroker
  obtain ⟨⟨r', w₂⟩, hr', h₂⟩ := Option.map_eq_some_iff.1 hcommit
  obtain ⟨rfl, hlen⟩ := Prod.mk.inj h₁
  obtain ⟨rfl, h₂⟩ := Prod.mk.inj h₂
  obtain ⟨hrows, hbank⟩ := Prod.mk.inj h₂
  refine ⟨sampleWorld_atRest, ⟨w₁, hr, fun heq => ?_⟩, w₂, hr', hrows, rfl, hbank⟩
  rw [heq] at hlen
  cases hlen

end PaySystem
