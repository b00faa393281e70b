import Mathlib.Data.List.Infix
import PaySystem.Database.Postgres
import PaySystem.Foundations.Text

/-!
# `AcquiringClient`

The client posts a request to the bank and reads the response. What the bank and the network do is
any outcome; the two methods say which outcomes they accept, and which of their exceptions the
others become. The body of a request does not matter for this, and is left out.
-/

namespace PaySystem

open Text

/-- A response of the bank. `contentType` is the header, if there is one. -/
structure Response where
  statusCode : ℕ
  contentType : Option String
  content : List UInt8
  deriving DecidableEq

/-- The outcomes of `client.post(...)`. -/
inductive HttpOutcome
  /-- A `httpx.HTTPError`. -/
  | httpError
  | response (r : Response)

/-- The part of httpx that the client uses: `response.text` and `response.json()`, which is `none`
where it raises. -/
structure Httpx where
  text : Response → String
  json : Response → Option Json

/-- The exception of `response.json()`, as a rule a `JSONDecodeError`. The client does not expect
it, nor do the callers. -/
def jsonDecodeError : ClientErr := .other "JSONDecodeError"

/-- `PAYMENT_BANK_ID`. -/
def PAYMENT_BANK_ID : String := "payment_id"

/-- `"application/json" in response.headers.get("content-type", "")`. -/
def Response.isJson (r : Response) : Bool :=
  decide ("application/json".toList <:+: (r.contentType.getD "").toList)

/-- `start_payment`, from the JSON of the response on. -/
def startPaymentJson : Json → Except ClientErr String
  | .str _ => .error .start
  | .obj data => match data.lookup PAYMENT_BANK_ID with
    | some (.str paymentId) => if paymentId ≠ "" then .ok paymentId else .error .start
    | _ => .error .start
  | _ => .error .start

/-- `start_payment`, from the text of the response on. -/
def startPaymentText (body : String) : Except ClientErr String :=
  let text := strip body
  if text = "" then .error .start
  else if hasSpace text then .error .start
  else if text.length > 255 then .error .start
  else .ok text

/-- `start_payment`. -/
def startPayment (httpx : Httpx) : HttpOutcome → Except ClientErr String
  | .httpError => .error .start
  | .response r =>
    if r.statusCode ≠ 200 then .error .start
    else if r.isJson then
      match httpx.json r with
      | none => .error jsonDecodeError
      | some data => startPaymentJson data
    else startPaymentText (httpx.text r)

/-- `check_payment`, from the JSON of the response on. -/
def checkPaymentJson : Json → Except ClientErr Dict
  | .obj [("error", .str "Payment not found")] => .error .notFound
  | .obj data => .ok data
  | _ => .error .check

/-- `check_payment`. -/
def checkPayment (httpx : Httpx) : HttpOutcome → Except ClientErr Dict
  | .httpError => .error .check
  | .response r =>
    if r.statusCode ≠ 200 then .error .check
    else if r.isJson then
      match httpx.json r with
      | none => .error jsonDecodeError
      | some data => checkPaymentJson data
    else .error .check

/-- What the client makes of the bank's reply to the start of a payment. -/
def StartReply.client : StartReply → Except ClientErr String
  | .accepted id => .ok id
  | .refused e => .error e
  | .lost e _ => .error e

/-! ## What the methods let through -/

/-- An id that fits into `bank_payment_id` and is a single token. -/
structure IsBankId (s : String) : Prop where
  ne : s ≠ ""
  noSpace : hasSpace s = false
  length : s.length ≤ 255

instance (s : String) : Decidable (IsBankId s) :=
  decidable_of_iff (s ≠ "" ∧ hasSpace s = false ∧ s.length ≤ 255)
    ⟨fun h => ⟨h.1, h.2.1, h.2.2⟩, fun h => ⟨h.ne, h.noSpace, h.length⟩⟩

variable {httpx : Httpx} {r : Response} {s : String} {data : Json}

theorem startPayment_json (hstatus : r.statusCode = 200) (hjson : r.isJson = true)
    (hdata : httpx.json r = some data) :
    startPayment httpx (.response r) = startPaymentJson data := by
  simp [startPayment, hstatus, hjson, hdata]

theorem startPayment_text (hstatus : r.statusCode = 200) (hjson : r.isJson = false) :
    startPayment httpx (.response r) = startPaymentText (httpx.text r) := by
  simp [startPayment, hstatus, hjson]

theorem startPayment_malformed (hstatus : r.statusCode = 200) (hjson : r.isJson = true)
    (hdata : httpx.json r = none) :
    startPayment httpx (.response r) = .error jsonDecodeError := by
  simp [startPayment, hstatus, hjson, hdata]

/-- The JSON path takes every id but the empty one. -/
theorem startPaymentJson_eq_ok : startPaymentJson data = .ok s ↔
    s ≠ "" ∧ ∃ items, data = .obj items ∧ items.lookup PAYMENT_BANK_ID = some (.str s) := by
  cases data with
  | obj items =>
    simp only [startPaymentJson, Json.obj.injEq, exists_eq_left']
    split
    · next paymentId hlookup =>
      rw [hlookup]
      split_ifs with hne
      · simp only [Except.ok.injEq, Option.some.injEq, Json.str.injEq]
        exact ⟨fun h => ⟨h ▸ hne, h⟩, fun h => h.2⟩
      · simp only [Option.some.injEq, Json.str.injEq, false_iff, not_and]
        exact fun h h' => h (h' ▸ not_not.1 hne)
    · next hlookup =>
      simp only [reduceCtorEq, false_iff, not_and]
      exact fun _ h => hlookup s h
  | _ => simp [startPaymentJson]

/-- The text path takes exactly the ids, with white space around them. -/
theorem startPaymentText_eq_ok {body : String} :
    startPaymentText body = .ok s ↔ IsBankId s ∧ strip body = s := by
  simp only [startPaymentText]
  constructor
  · intro h
    split_ifs at h with hne hspace hlen
    obtain rfl := Except.ok.inj h
    exact ⟨⟨hne, by simpa using hspace, not_lt.1 hlen⟩, rfl⟩
  · rintro ⟨hs, rfl⟩
    rw [if_neg hs.ne, if_neg (by simp [hs.noSpace]), if_neg (not_lt.2 hs.length)]

/-! ## A small instance -/

/-- Bodies in ASCII; `bodies` are those that are JSON. -/
def Httpx.ascii (bodies : List (String × Json)) : Httpx where
  text r := .ofList (r.content.map fun b => Char.ofNat b.toNat)
  json r := bodies.lookup (.ofList (r.content.map fun b => Char.ofNat b.toNat))

/-- A response with the status 200 and a body in ASCII. -/
def Response.ascii (contentType body : String) : Response :=
  ⟨200, some contentType, body.toList.map fun c => UInt8.ofNat c.toNat⟩

end PaySystem
