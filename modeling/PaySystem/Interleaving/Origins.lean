import PaySystem.Interleaving.Conversations

/-!
# Every payment from a call of its own

However calls are interleaved, retried and killed: the payments that a run adds, the payments that
it starts at the bank and the questions that it asks the bank can be matched with distinct calls of
the run, each of which was meant to do just that.
-/

namespace PaySystem

variable {types : Set String} {py : Pydantic} {greenlet : Bool} {β : Type} {i : ℕ} {w w' : World}
  {σ σ' : Session} {env : Env} {s : Stmt β} {r : Except Err β} {t : Trail types} {p : Payment}
  {g g' : Marks (Trail types)}

/-- The call is a deposit into the order and of the amount that the bank was told. -/
def Call.Starts : Call types → BankPayment → Prop
  | deposit _ payload _, b => b.orderId = payload.orderId ∧ b.amount = payload.amount
  | _, _ => False

/-- The call is a check of a stored payment that has this id at the bank. -/
def Call.Asks (db : Db) (c : Call types) (bankPaymentId : String) : Prop :=
  ∃ p ∈ db.payments.rows, c = .check p.id ∧ p.bankPaymentId = some bankPaymentId

theorem Call.makes_origin_iff {c : Call types} : c.Makes p.origin ↔ c.Makes p := by
  cases c <;> exact Iff.rfl

/-! ## Payments -/

/-- A call has inserted nothing that it has not committed, or the one payment that it makes. -/
def Trail.Single (t : Trail types) : Prop :=
  inserts t.writes = [] ∨ ∃ p, inserts t.writes = [p] ∧ t.stored = [] ∧ t.call.Makes p

theorem Trail.Single.next (h : t.Single) (hallow : t.Allows greenlet s) : (t.next s r).Single := by
  by_cases hnew : inserts (s.written [] r) = []
  · rcases t.stored_next s r with ⟨hstored, -⟩ | ⟨-, hnil, -⟩
    · rcases inserts_written t.writes s r with hws | hws
      · exact Or.inl hws
      · rw [hnew, List.append_nil] at hws
        change inserts (s.written t.writes r) = [] ∨ ∃ p, inserts (s.written t.writes r) = [p] ∧ _
        rw [hws, hstored, Trail.call_next]
        exact h
    · refine Or.inl ?_
      change inserts (s.written t.writes r) = []
      rw [hnil]
      rfl
  · cases s with
    | insertPayment p => cases r with
      | error e => exact absurd rfl hnew
      | ok id =>
        obtain ⟨hmakes, hws, hstored⟩ := hallow
        refine Or.inr ⟨_, ?_, hstored, hmakes id⟩
        change inserts (t.writes ++ [.insertPayment { p with id := id }]) = _
        rw [hws]
        rfl
    | _ => cases r <;> exact absurd rfl hnew

/-- How the calls account for the payments. -/
def paymentAccount (types : Set String) : System.Account (Trail types) (Call types) Payment where
  call := Trail.call
  spent t := !t.stored.isEmpty
  Makes := Call.Makes

/-- The origins of the payments that were added since a state with `n` payments. -/
def World.newOrigins (n : ℕ) (w : World) : List Payment := w.db.origins.drop n

/-- The payments since `w₀` are covered by calls. -/
structure Sourced (w₀ : World) (es : List (Event (Call types) Env)) (w : World)
    (g : Marks (Trail types)) : Prop where
  single : ∀ i t, g i = some t → t.Single
  earlier : w₀.db.origins <+: w.db.origins
  covers : (paymentAccount types).Covers es (w.newOrigins w₀.db.origins.length) g

/-- A statement stores nothing, or the payment of a call that has stored none. -/
theorem newOrigins_of_exec {n : ℕ} (hlinked : Linked w g) (ht : g i = some t) (hsingle : t.Single)
    (hn : n ≤ w.db.origins.length) (hexec : execStmt i env w σ s = some (r, w', σ')) :
    w'.newOrigins n = w.newOrigins n ∧
        ((paymentAccount types).spent (t.next s r) = false →
          (paymentAccount types).spent t = false) ∨
      ∃ a, w'.newOrigins n = w.newOrigins n ++ [a] ∧ t.call.Makes a ∧
        (paymentAccount types).spent t = false ∧
        (paymentAccount types).spent (t.next s r) = true := by
  have he : Effect i s r w w' := effect_of_exec hexec
  have hws : w.writes i = t.writes := by
    rw [hlinked.writes, ht]
    rfl
  simp only [World.newOrigins, paymentAccount, he.db]
  rcases t.stored_next s r with ⟨hstored, hdb⟩ | ⟨hstored, -, hdb⟩ <;> rw [hdb, hstored]
  · exact Or.inl ⟨rfl, id⟩
  · have horigins : ((w.writes i).foldl Db.apply w.db).origins = _ :=
      hlinked.pending.origins_view i
    rw [horigins, hws, List.drop_append_of_le_length hn]
    rcases hsingle with hnil | ⟨p, hp, hnone, hmakes⟩
    · rw [hnil]
      exact Or.inl ⟨List.append_nil _, fun h => by rwa [List.append_nil] at h⟩
    · rw [hp, hnone]
      exact Or.inr ⟨p.origin, rfl, Call.makes_origin_iff.2 hmakes, rfl, rfl⟩

theorem Linked.sourced {w₀ : World} {c : Config Stmt Err Outcome World Session}
    {es : List (Event (Call types) Env)} {e : Event (Call types) Env} (h : Linked c.world g)
    (hm : System.Move (paySystem types py) (trails types greenlet) c e w' g g')
    (hs : Sourced w₀ es c.world g) : Sourced w₀ (es ++ [e]) w' g' where
  single := hm.forall_mark (P := fun _ t => t.Single) (fun i t _ => hs.single i t)
    (fun _ _ _ => Or.inl rfl) fun _ mark allowed _ _ => (hs.single _ _ mark).next allowed
  earlier := by
    cases hm with
    | spawn i call idle => exact hs.earlier
    | call i env mark st allowed exec answered sent =>
      refine hs.earlier.trans ?_
      rcases h.pending.origins_commit (effect_of_exec exec) with hdb | ⟨-, hdb⟩
      · exact hdb.symm ▸ List.prefix_refl _
      · exact hdb.symm ▸ List.prefix_append _ _
    | finish e closing mark ends => exact hs.earlier
  covers := by
    refine hs.covers.move hm (fun _ => rfl) (fun _ _ => rfl) fun ht _ hexec =>
      ⟨Trail.call_next _ _ _, ?_⟩
    exact newOrigins_of_exec h ht (hs.single _ _ ht) hs.earlier.length_le hexec

theorem sourced_of_run (py : Pydantic) {w : World} (hw : w.AtRest)
    {s : Config Stmt Err Outcome World Session} {es : List (Event (Call types) Env)}
    (hs : (paySystem types py).run System.anyStep (atRest w) es = some s) :
    ∃ g, Sourced w es s.world g := by
  obtain ⟨g, -, -, hg⟩ := linked_induction py hw hs (greenlets_true es)
    (fun es w' g => Sourced w es w' g)
    ⟨fun _ _ h => (nomatch h), List.prefix_refl _, by
      rw [World.newOrigins, List.drop_length]
      exact System.Account.covers_start⟩
    fun _ _ _ _ _ _ _ _ hlinked hm h => hlinked.sourced hm h
  exact ⟨g, hg⟩

/-- The new rows and their calls. -/
theorem Sourced.exists_rows {w₀ : World} {es : List (Event (Call types) Env)}
    (h : Sourced w₀ es w g) : ∃ old new cs, w.db.payments.rows = old ++ new ∧
      List.Forall₂ Payment.SameOrigin w₀.db.payments.rows old ∧
      List.Subperm cs (System.spawned es) ∧ List.Forall₂ Call.Makes cs new := by
  obtain ⟨cs, hsub, hmakes⟩ := h.covers.exists_calls
  obtain ⟨newOrigins, hnew⟩ := h.earlier
  have hdrop : w.newOrigins w₀.db.origins.length = newOrigins := by
    rw [World.newOrigins, ← hnew, List.drop_left]
  rw [hdrop] at hmakes
  obtain ⟨old, new, hrows, hold, hnew⟩ := List.map_eq_append_iff.1 hnew.symm
  refine ⟨old, new, cs, hrows, ?_, hsub, ?_⟩
  · have heq : List.Forall₂ (· = ·) (w₀.db.payments.rows.map Payment.origin)
        (old.map Payment.origin) := by
      rw [List.forall₂_eq_eq_eq]
      exact hold.symm
    rw [List.forall₂_map_left_iff, List.forall₂_map_right_iff] at heq
    exact heq.imp fun _ _ h => origin_eq_iff.1 h.symm
  · rw [← hnew, List.forall₂_map_right_iff] at hmakes
    exact hmakes.imp fun _ _ => Call.makes_origin_iff.1

/-- **Every new payment has a call of its own**: in every run, the payments from before it keep
their places and origins, and the payments that it adds can be matched with distinct calls, by the
user, for the order, of the amount and in the direction of the payment. -/
theorem payments_from_calls (types : Set String) (py : Pydantic) {w : World} (hw : w.AtRest)
    {s : Config Stmt Err Outcome World Session} {es : List (Event (Call types) Env)}
    (hs : (paySystem types py).run System.anyStep (atRest w) es = some s) :
    ∃ old new cs, s.world.db.payments.rows = old ++ new ∧
      List.Forall₂ Payment.SameOrigin w.db.payments.rows old ∧
      List.Subperm cs (System.spawned es) ∧ List.Forall₂ Call.Makes cs new := by
  obtain ⟨g, hg⟩ := sourced_of_run py hw hs
  exact hg.exists_rows

/-- Two deposits and a check: the two payments have a deposit each, and the check has none. -/
theorem payments_from_calls_sample : ∃ s,
    (paySystem endpointTypes .numbers).run System.anyStep (atRest sampleWorld)
      (sampleDeposit 0 sampleHalf "a" ++ sampleDeposit 1 sampleHalf "b" ++ sampleCheck 2 1 "a") =
        some s ∧
    s.world.db.payments.rows.length = 2 ∧
    ∃ old new cs, s.world.db.payments.rows = old ++ new ∧
      List.Forall₂ Payment.SameOrigin sampleWorld.db.payments.rows old ∧
      List.Subperm cs (System.spawned (sampleDeposit 0 sampleHalf "a" ++
        sampleDeposit 1 sampleHalf "b" ++ sampleCheck 2 1 "a")) ∧
      List.Forall₂ Call.Makes cs new := by
  have hany : ((paySystem endpointTypes .numbers).run System.anyStep (atRest sampleWorld)
      (sampleDeposit 0 sampleHalf "a" ++ sampleDeposit 1 sampleHalf "b" ++
        sampleCheck 2 1 "a")).any (fun s => decide (s.world.db.payments.rows.length = 2)) =
          true := by decide +kernel
  obtain ⟨s, hs, hlen⟩ := (Option.any_eq_true _ _).1 hany
  exact ⟨s, hs, of_decide_eq_true hlen,
    payments_from_calls endpointTypes .numbers sampleWorld_atRest hs⟩

/-! ## What is said to the bank -/

/-- How the calls account for the payments that the bank has started. -/
def startAccount (types : Set String) : System.Account (Trail types) (Call types) BankPayment where
  call := Trail.call
  spent := Trail.started
  Makes := Call.Starts

/-- How the calls account for the questions that the bank was asked. -/
def askAccount (types : Set String) (db : Db) :
    System.Account (Trail types) (Call types) (String × Except ClientErr Dict) where
  call := Trail.call
  spent := Trail.asked
  Makes c x := c.Asks db x.1

/-- The payment of a check is stored, and it is the one that the check is about. -/
def Trail.Seen (t : Trail types) (w : World) : Prop :=
  ∀ p, t.payment = some p → t.call = .check p.id ∧ p.origin ∈ w.db.origins

/-- What a statement says to the bank. -/
inductive Said (t t' : Trail types) (w w' : World) : Prop
  | nothing (bank : w'.bank = w.bank) (answers : w'.answers = w.answers)
      (started : t'.started = t.started) (asked : t'.asked = t.asked)
  | start (unstarted : t.started = false) (started : t'.started = true)
      (bank : w'.bank = w.bank ∨ ∃ b, w'.bank = w.bank ++ [b] ∧ t.call.Starts b)
      (answers : w'.answers = w.answers) (asked : t'.asked = t.asked)
  | ask (unasked : t.asked = false) (asked : t'.asked = true) (p : Payment)
      (payment : t.payment = some p) (x : String × Except ClientErr Dict)
      (bankPaymentId : p.bankPaymentId = some x.1) (answers : w'.answers = w.answers ++ [x])
      (bank : w'.bank = w.bank) (started : t'.started = t.started)

theorem said_of_exec (hallow : t.Allows greenlet s)
    (h : execStmt i env w σ s = some (r, w', σ')) : Said t (t.next s r) w w' := by
  cases s with
  | startPayment orderId amount =>
    obtain ⟨hstarted, -, order, x, -, hid, -, -, hdeposits⟩ := hallow
    have hstarts : ∀ id, t.call.Starts ⟨id, orderId, amount⟩ := by
      intro id
      cases hc : t.call with
      | deposit userId payload paymentType =>
        rw [hc] at hdeposits
        exact ⟨hid.symm.trans hdeposits.2.1, hdeposits.2.2⟩
      | _ =>
        rw [hc] at hdeposits
        exact hdeposits
    simp only [execStmt] at h
    split at h <;> cases h
    · exact .start hstarted rfl (Or.inr ⟨_, rfl, hstarts _⟩) rfl rfl
    · exact .start hstarted rfl (Or.inl rfl) rfl rfl
    · exact .start hstarted rfl (Or.inr ⟨_, rfl, hstarts _⟩) rfl rfl
  | checkPayment b =>
    obtain ⟨hasked, -, p, hp, hb⟩ := hallow
    cases h
    exact .ask hasked rfl p hp _ hb rfl rfl rfl
  | insertPayment p =>
    simp only [execStmt] at h
    rcases (sql_cases h).2 with ⟨msg, -, rfl, rfl⟩ | ⟨-, ha⟩
    · exact .nothing rfl rfl rfl rfl
    · unfold World.insertPayment at ha
      split_ifs at ha <;> cases ha <;> exact .nothing rfl rfl rfl rfl
  | identityMapGet | now =>
    cases h
    exact .nothing rfl rfl rfl rfl
  | awaitOnly =>
    cases h
    cases env.greenlet <;> exact .nothing rfl rfl rfl rfl
  | applyAsync =>
    simp only [execStmt] at h
    split at h <;> cases h <;> exact .nothing rfl rfl rfl rfl
  | selectBalance orderId f =>
    simp only [execStmt] at h
    rcases (sql_cases h).2 with ⟨msg, -, rfl, rfl⟩ | ⟨-, ha⟩
    · cases f <;> exact .nothing rfl rfl rfl rfl
    · cases ha
      cases f <;> exact .nothing rfl rfl rfl rfl
  | _ =>
    simp only [execStmt] at h
    rcases (sql_cases h).2 with ⟨msg, -, rfl, rfl⟩ | ⟨-, ha⟩
    · exact .nothing rfl rfl rfl rfl
    · cases ha
      exact .nothing rfl rfl rfl rfl

theorem Call.Asks.mono {db db' : Db} {c : Call types} {b : String} (h : c.Asks db b)
    (horigins : db.origins ⊆ db'.origins) : c.Asks db' b := by
  obtain ⟨p, hp, rfl, hb⟩ := h
  obtain ⟨p', hp', horigin⟩ := mem_origins_iff.1 (horigins (List.mem_map_of_mem hp))
  exact ⟨p', hp', by rw [horigin.id], horigin.bankPaymentId.trans hb⟩

theorem Trail.Seen.mono (h : t.Seen w) (horigins : w.db.origins ⊆ w'.db.origins) : t.Seen w' :=
  fun p hp => ⟨(h p hp).1, horigins (h p hp).2⟩

theorem Trail.Seen.asks {b : String} (h : t.Seen w) (hp : t.payment = some p)
    (hb : p.bankPaymentId = some b) : t.call.Asks w.db b := by
  obtain ⟨hcall, hmem⟩ := h p hp
  obtain ⟨p', hp', horigin⟩ := mem_origins_iff.1 hmem
  exact ⟨p', hp', by rw [hcall, horigin.id], horigin.bankPaymentId.trans hb⟩

/-- The payments that the bank has started since it had `n`. -/
def World.newBank (n : ℕ) (w : World) : List BankPayment := w.bank.drop n

/-- The answers of the bank since it had given `n`. -/
def World.newAnswers (n : ℕ) (w : World) : List (String × Except ClientErr Dict) :=
  w.answers.drop n

/-- What is said to the bank since `w₀` is covered by calls. -/
structure Spoken (w₀ : World) (es : List (Event (Call types) Env)) (w : World)
    (g : Marks (Trail types)) : Prop where
  seen : ∀ i t, g i = some t → t.Seen w
  bank : w₀.bank <+: w.bank
  answers : w₀.answers <+: w.answers
  starts : (startAccount types).Covers es (w.newBank w₀.bank.length) g
  asks : (askAccount types w.db).Covers es (w.newAnswers w₀.answers.length) g

/-- What was said to the bank is not unsaid. -/
theorem said_before {c : Config Stmt Err Outcome World Session} {e : Event (Call types) Env}
    (hm : System.Move (paySystem types py) (trails types greenlet) c e w' g g') :
    c.world.bank <+: w'.bank ∧ c.world.answers <+: w'.answers := by
  cases hm with
  | spawn i call idle => exact ⟨List.prefix_refl _, List.prefix_refl _⟩
  | call i env mark st allowed exec answered sent =>
    rcases said_of_exec allowed exec with ⟨hbank, hanswers, -, -⟩ |
      ⟨-, -, hbank | ⟨b, hbank, -⟩, hanswers, -⟩ | ⟨-, -, -, -, x, -, hanswers, hbank, -⟩ <;>
    rw [hbank, hanswers] <;>
    first
      | exact ⟨List.prefix_refl _, List.prefix_refl _⟩
      | exact ⟨List.prefix_append _ _, List.prefix_refl _⟩
      | exact ⟨List.prefix_refl _, List.prefix_append _ _⟩
  | finish e closing mark ends => exact ⟨List.prefix_refl _, List.prefix_refl _⟩

theorem Linked.seen {c : Config Stmt Err Outcome World Session} {e : Event (Call types) Env}
    (h : Linked c.world g)
    (hm : System.Move (paySystem types py) (trails types greenlet) c e w' g g')
    (hs : ∀ i t, g i = some t → t.Seen c.world) : ∀ i t, g' i = some t → t.Seen w' := by
  have horigins := (h.subset hm).1
  refine hm.forall_mark (fun i t _ ht => (hs i t ht).mono horigins)
    (fun _ _ _ _ hp => nomatch hp) fun _ mark allowed exec _ p hp => ?_
  have hws := (h.writes _).trans (by rw [mark])
  rcases payment_of_exec exec allowed hws hp with hp | ⟨hheld, -, hcheck⟩
  · obtain ⟨hcheck, hmem⟩ := hs _ _ mark p hp
    exact ⟨(Trail.call_next _ _ _).trans hcheck, horigins hmem⟩
  · exact ⟨(Trail.call_next _ _ _).trans hcheck,
      List.mem_map_of_mem (Table.mem_of_find? hheld.row)⟩

theorem Linked.spoken {w₀ : World} {c : Config Stmt Err Outcome World Session}
    {es : List (Event (Call types) Env)} {e : Event (Call types) Env} (h : Linked c.world g)
    (hm : System.Move (paySystem types py) (trails types greenlet) c e w' g g')
    (hs : Spoken w₀ es c.world g) : Spoken w₀ (es ++ [e]) w' g' where
  seen := h.seen hm hs.seen
  bank := hs.bank.trans (said_before hm).1
  answers := hs.answers.trans (said_before hm).2
  starts := by
    refine hs.starts.move hm (fun _ => rfl) (fun _ _ => rfl) fun ht hallow hexec =>
      ⟨Trail.call_next _ _ _, ?_⟩
    simp only [World.newBank]
    rcases said_of_exec hallow hexec with ⟨hbank, -, hsame, -⟩ |
      ⟨hfree, hspent, hbank | ⟨b, hbank, hb⟩, -, -⟩ | ⟨-, -, -, -, -, -, -, hbank, hsame⟩
    · exact Or.inl ⟨by rw [hbank], fun hfree => hsame.symm.trans hfree⟩
    · exact Or.inl ⟨by rw [hbank], fun _ => hfree⟩
    · rw [hbank, List.drop_append_of_le_length hs.bank.length_le]
      exact Or.inr ⟨b, rfl, hb, hfree, hspent⟩
    · exact Or.inl ⟨by rw [hbank], fun hfree => hsame.symm.trans hfree⟩
  asks := by
    have hasks : (askAccount types w'.db).Covers es (c.world.newAnswers w₀.answers.length) g :=
      hs.asks.mono rfl rfl fun _ _ ha => ha.mono (h.subset hm).1
    refine hasks.move hm (fun _ => rfl) (fun _ _ => rfl) fun ht hallow hexec =>
      ⟨Trail.call_next _ _ _, ?_⟩
    simp only [World.newAnswers]
    rcases said_of_exec hallow hexec with ⟨-, hanswers, -, hsame⟩ |
      ⟨-, -, -, hanswers, hsame⟩ | ⟨hfree, hspent, p, hp, x, hx, hanswers, -, -⟩
    · exact Or.inl ⟨by rw [hanswers], fun hfree => hsame.symm.trans hfree⟩
    · exact Or.inl ⟨by rw [hanswers], fun hfree => hsame.symm.trans hfree⟩
    · rw [hanswers, List.drop_append_of_le_length hs.answers.length_le]
      have hasked := (hs.seen _ _ ht).asks hp hx
      exact Or.inr ⟨x, rfl, hasked.mono (h.subset hm).1, hfree, hspent⟩

theorem spoken_of_run (py : Pydantic) {w : World} (hw : w.AtRest)
    {s : Config Stmt Err Outcome World Session} {es : List (Event (Call types) Env)}
    (hs : (paySystem types py).run System.anyStep (atRest w) es = some s) :
    ∃ g, Spoken w es s.world g := by
  obtain ⟨g, -, -, hg⟩ := linked_induction py hw hs (greenlets_true es)
    (fun es w' g => Spoken w es w' g)
    ⟨fun _ _ h => (nomatch h), List.prefix_refl _, List.prefix_refl _, by
      rw [World.newBank, List.drop_length]
      exact System.Account.covers_start, by
      rw [World.newAnswers, List.drop_length]
      exact System.Account.covers_start⟩
    fun _ _ _ _ _ _ _ _ hlinked hm h => hlinked.spoken hm h
  exact ⟨g, hg⟩

/-- **Everything that is said to the bank comes from a call of its own**: in every run, the payments
that the bank starts can be matched with distinct deposits into their orders and of their amounts,
and the questions that it is asked with distinct checks of stored payments with these ids. -/
theorem bank_traffic_from_calls (types : Set String) (py : Pydantic) {w : World} (hw : w.AtRest)
    {s : Config Stmt Err Outcome World Session} {es : List (Event (Call types) Env)}
    (hs : (paySystem types py).run System.anyStep (atRest w) es = some s) :
    (∃ new cs, s.world.bank = w.bank ++ new ∧ List.Subperm cs (System.spawned es) ∧
      List.Forall₂ Call.Starts cs new) ∧
    ∃ new cs, s.world.answers = w.answers ++ new ∧ List.Subperm cs (System.spawned es) ∧
      List.Forall₂ (fun c x => Call.Asks s.world.db c x.1) cs new := by
  obtain ⟨g, hg⟩ := spoken_of_run py hw hs
  obtain ⟨newBank, hbank⟩ := hg.bank
  obtain ⟨newAnswers, hanswers⟩ := hg.answers
  have hstarts := hg.starts.exists_calls
  have hasks := hg.asks.exists_calls
  rw [World.newBank, ← hbank, List.drop_left] at hstarts
  rw [World.newAnswers, ← hanswers, List.drop_left] at hasks
  exact ⟨⟨newBank, hstarts.imp fun _ h => ⟨hbank.symm, h⟩⟩,
    newAnswers, hasks.imp fun _ h => ⟨hanswers.symm, h⟩⟩

/-- A deposit and a check of it: the bank was asked to start one payment, and once about it. -/
theorem bank_traffic_from_calls_sample : ∃ s,
    (paySystem endpointTypes .numbers).run System.anyStep (atRest sampleWorld)
      (sampleDeposit 0 sampleHalf "a" ++ sampleCheck 1 1 "a") = some s ∧
    s.world.bank.length = 1 ∧ s.world.answers.length = 1 ∧
    (∃ new cs, s.world.bank = sampleWorld.bank ++ new ∧
      List.Subperm cs (System.spawned (sampleDeposit 0 sampleHalf "a" ++ sampleCheck 1 1 "a")) ∧
      List.Forall₂ Call.Starts cs new) ∧
    ∃ new cs, s.world.answers = sampleWorld.answers ++ new ∧
      List.Subperm cs (System.spawned (sampleDeposit 0 sampleHalf "a" ++ sampleCheck 1 1 "a")) ∧
      List.Forall₂ (fun c x => Call.Asks s.world.db c x.1) cs new := by
  have hany : ((paySystem endpointTypes .numbers).run System.anyStep (atRest sampleWorld)
      (sampleDeposit 0 sampleHalf "a" ++ sampleCheck 1 1 "a")).any (fun s =>
        decide (s.world.bank.length = 1 ∧ s.world.answers.length = 1)) = true := by
    decide +kernel
  obtain ⟨s, hs, htest⟩ := (Option.any_eq_true _ _).1 hany
  obtain ⟨hbank, hanswers⟩ := of_decide_eq_true htest
  exact ⟨s, hs, hbank, hanswers,
    bank_traffic_from_calls endpointTypes .numbers sampleWorld_atRest hs⟩

end PaySystem
