import PaySystem.Clients.Acquiring
import PaySystem.Sequential.Services

/-!
# The ids that the bank gives

`start_payment` takes an id from a JSON body or from a plain text. The text path checks that it is a
single token that fits into the column `bank_payment_id`; the JSON path only that it is not empty.
-/

namespace PaySystem

open Text

variable {httpx : Httpx} {r r' : Response} {s : String}

/-- The body is a JSON object with an id that is no token, or too long for the column. -/
def Response.HasLooseId (httpx : Httpx) (r : Response) : Prop :=
  r.isJson = true ∧ ∃ items s, httpx.json r = some (.obj items) ∧
    items.lookup PAYMENT_BANK_ID = some (.str s) ∧ s ≠ "" ∧ ¬ IsBankId s

/-- A response with the JSON body `{"payment_id": s}`. -/
structure Response.JsonBody (httpx : Httpx) (s : String) (r : Response) : Prop where
  status : r.statusCode = 200
  isJson : r.isJson = true
  body : httpx.json r = some (.obj [(PAYMENT_BANK_ID, .str s)])

/-- A response with the text `s`, which does not say that it is JSON. -/
structure Response.TextBody (httpx : Httpx) (s : String) (r : Response) : Prop where
  status : r.statusCode = 200
  isJson : r.isJson = false
  body : httpx.text r = s

/-- Which ids the client returns. -/
theorem startPayment_eq_ok (hstatus : r.statusCode = 200) :
    startPayment httpx (.response r) = .ok s ↔
      (r.isJson = true ∧ s ≠ "" ∧ ∃ items, httpx.json r = some (.obj items) ∧
        items.lookup PAYMENT_BANK_ID = some (.str s)) ∨
      (r.isJson = false ∧ IsBankId s ∧ strip (httpx.text r) = s) := by
  cases hjson : r.isJson with
  | false => simp [startPayment_text hstatus hjson, startPaymentText_eq_ok]
  | true =>
    cases hdata : httpx.json r with
    | none => simp [startPayment_malformed hstatus hjson hdata]
    | some data => simp [startPayment_json hstatus hjson hdata, startPaymentJson_eq_ok]

/-- The ids of a response are tokens, unless it is JSON with a loose id. -/
theorem isBankId_iff (hstatus : r.statusCode = 200) :
    (∀ s, startPayment httpx (.response r) = .ok s → IsBankId s) ↔ ¬ r.HasLooseId httpx := by
  constructor
  · rintro h ⟨hjson, items, s, hitems, hlookup, hne, hloose⟩
    exact hloose (h s ((startPayment_eq_ok hstatus).2 (.inl ⟨hjson, hne, items, hitems, hlookup⟩)))
  · intro h s hs
    rcases (startPayment_eq_ok hstatus).1 hs with ⟨hjson, hne, items, hitems, hlookup⟩ | ⟨-, hid, -⟩
    · by_contra hloose
      exact h ⟨hjson, items, s, hitems, hlookup, hne, hloose⟩
    · exact hid

theorem Response.JsonBody.eq_ok_iff (h : r.JsonBody httpx s) :
    startPayment httpx (.response r) = .ok s ↔ s ≠ "" := by
  rw [startPayment_json h.status h.isJson h.body, startPaymentJson_eq_ok]
  simp

theorem Response.TextBody.eq_ok_iff (hs : strip s = s) (h : r.TextBody httpx s) :
    startPayment httpx (.response r) = .ok s ↔ IsBankId s := by
  rw [startPayment_text h.status h.isJson, startPaymentText_eq_ok, h.body]
  simp [hs]

theorem Response.JsonBody.hasLooseId_iff (h : r.JsonBody httpx s) :
    r.HasLooseId httpx ↔ s ≠ "" ∧ ¬ IsBankId s := by
  constructor
  · rintro ⟨-, items, s', hitems, hlookup, hloose⟩
    rw [h.body, Option.some.injEq, Json.obj.injEq] at hitems
    subst hitems
    simp only [List.lookup_cons_self, Option.some.injEq, Json.str.injEq] at hlookup
    exact hlookup ▸ hloose
  · intro hloose
    exact ⟨h.isJson, _, s, h.body, by simp, hloose⟩

/-- **When the two formats accept the same ids.** The ids that the client takes from a response are
tokens that fit into the column of the row, and the JSON body with an id is accepted like the text
with this id, exactly if the JSON has no loose id. -/
theorem startPayment_formats_iff (httpx : Httpx) :
    (∀ r : Response, r.statusCode = 200 →
      ((∀ s, startPayment httpx (.response r) = .ok s → IsBankId s ∧
          ∀ (userId : ℕ) (payload : PaymentCreate), (submittedPayment userId payload.orderId
            payload.amount PaymentType.ACQUIRING.value s).fits = true) ↔
        ¬ r.HasLooseId httpx)) ∧
    ∀ (s : String) (r r' : Response), strip s = s → r.JsonBody httpx s → r'.TextBody httpx s →
      ((startPayment httpx (.response r) = .ok s ↔ startPayment httpx (.response r') = .ok s) ↔
        ¬ r.HasLooseId httpx) := by
  refine ⟨fun r hstatus => ?_, fun s r r' hs hjson htext => ?_⟩
  · rw [← isBankId_iff hstatus]
    refine forall₂_congr fun s _ => ⟨fun h => h.1, fun h => ⟨h, fun userId payload => ?_⟩⟩
    exact submittedPayment_fits payload userId h.length (by decide)
  · rw [hjson.eq_ok_iff, htext.eq_ok_iff hs, hjson.hasLooseId_iff, not_and, not_not]
    exact ⟨fun h => h.1, fun h => ⟨h, fun hid => hid.ne⟩⟩

/-- A JSON body with an id. -/
def idBody (s : String) : String := "\x7b\"payment_id\": \"" ++ s ++ "\"\x7d"

/-- The JSON body with the id `s`. -/
def idBodies (s : String) : Httpx := .ascii [(idBody s, .obj [(PAYMENT_BANK_ID, .str s)])]

theorem looseJson_body : (Response.ascii "application/json" (idBody "a b")).JsonBody
    (idBodies "a b") "a b" where
  status := rfl
  isJson := by decide +kernel
  body := by rfl

theorem looseText_body : (Response.ascii "text/plain" "a b").TextBody (idBodies "a b") "a b" where
  status := rfl
  isJson := by decide +kernel
  body := by decide +kernel

theorem startPayment_formats_iff_sample :
    ((∀ s, startPayment (idBodies "a b")
          (.response (.ascii "application/json" (idBody "a b"))) = .ok s → IsBankId s ∧
        ∀ (userId : ℕ) (payload : PaymentCreate), (submittedPayment userId payload.orderId
          payload.amount PaymentType.ACQUIRING.value s).fits = true) ↔
      ¬ (Response.ascii "application/json" (idBody "a b")).HasLooseId (idBodies "a b")) ∧
    ((startPayment (idBodies "a b") (.response (.ascii "application/json" (idBody "a b"))) =
          .ok "a b" ↔
        startPayment (idBodies "a b") (.response (.ascii "text/plain" "a b")) = .ok "a b") ↔
      ¬ (Response.ascii "application/json" (idBody "a b")).HasLooseId (idBodies "a b")) :=
  ⟨(startPayment_formats_iff (idBodies "a b")).1 _ rfl,
    (startPayment_formats_iff (idBodies "a b")).2 _ _ _ (by decide +kernel) looseJson_body
      looseText_body⟩

/-- The client takes the id `a b` from JSON, and does not take it from a text. -/
theorem loose_id_accepted :
    (¬ ∀ (httpx : Httpx) (r : Response), r.statusCode = 200 →
      ∀ s, startPayment httpx (.response r) = .ok s → IsBankId s) ∧
    ¬ ∀ (httpx : Httpx) (s : String) (r r' : Response), strip s = s → r.JsonBody httpx s →
      r'.TextBody httpx s →
      (startPayment httpx (.response r) = .ok s ↔ startPayment httpx (.response r') = .ok s) := by
  have hok := looseJson_body.eq_ok_iff.2 (by decide)
  have hid : ¬ IsBankId "a b" := by decide +kernel
  have hstrip : strip "a b" = "a b" := by decide +kernel
  refine ⟨fun h => hid (h _ _ rfl _ hok), fun h => hid ?_⟩
  exact (looseText_body.eq_ok_iff hstrip).1 ((h _ _ _ _ hstrip looseJson_body looseText_body).1 hok)

end PaySystem
