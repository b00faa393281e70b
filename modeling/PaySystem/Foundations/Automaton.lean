import Mathlib.Data.List.Nodup
import Mathlib.Data.List.Perm.Basic
import Mathlib.Data.List.Perm.Subperm
import Mathlib.Tactic.Linarith

/-!
# Automata that refuse events

An automaton takes an event in a state, or refuses it. Three rules lead from its steps to its runs:
invariants, accounts (what the steps spend is paid from what they earn), and outputs, which are
found again at the places of a run that made them.
-/

namespace PaySystem

/-- The step of an automaton; `none` if the event is not possible in the state. -/
abbrev Automaton (σ ε : Type*) := σ → ε → Option σ

namespace Automaton

variable {σ ε β γ : Type*} (A : Automaton σ ε)

/-- The state after a list of events, if all of them are possible. -/
def run (s : σ) : List ε → Option σ
  | [] => some s
  | e :: es => (A s e).bind fun s' => run s' es

/-- What the events of a run put out. -/
def trace (out : σ → ε → List β) (s : σ) : List ε → List β
  | [] => []
  | e :: es => out s e ++ ((A s e).map fun s' => trace out s' es).getD []

variable {A} {out : σ → ε → List β} {s s' : σ} {e : ε} {es : List ε}

theorem run_cons : A.run s (e :: es) = some s' ↔ ∃ s₁, A s e = some s₁ ∧ A.run s₁ es = some s' :=
  Option.bind_eq_some_iff

theorem trace_cons (h : A s e = some s') :
    A.trace out s (e :: es) = out s e ++ A.trace out s' es := by
  rw [trace, h, Option.map_some, Option.getD_some]

theorem filterMap_trace (f : β → Option γ) (h : A.run s es = some s') :
    (A.trace out s es).filterMap f = A.trace (fun s e => (out s e).filterMap f) s es := by
  induction es generalizing s with
  | nil => rfl
  | cons e es ih =>
    obtain ⟨s₁, he, hes⟩ := run_cons.1 h
    rw [trace_cons he, trace_cons he, List.filterMap_append, ih hes]

/-- The condition holds at every event of a run. -/
def Along (A : Automaton σ ε) (P : σ → ε → Prop) (s : σ) : List ε → Prop
  | [] => True
  | e :: es => P s e ∧ ∀ s', A s e = some s' → Along A P s' es

instance decidableAlong {P : σ → ε → Prop} [∀ s e, Decidable (P s e)] :
    ∀ (s : σ) (es : List ε), Decidable (A.Along P s es)
  | _, [] => inferInstanceAs (Decidable True)
  | s, e :: es =>
    have := fun s' => decidableAlong (P := P) s' es
    inferInstanceAs (Decidable (P s e ∧ ∀ s' ∈ A s e, Along A P s' es))

/-- **The rule of accounts**: if a step that spends `cost e` leaves at most the `credit` of before
and what the step earns, by its `income` or in the state, then this is so for whole runs. -/
theorem account {credit earned : σ → ℕ} {cost income : ε → ℕ}
    (hstep : ∀ s e s', A s e = some s' →
      cost e + credit s' + earned s ≤ credit s + earned s' + income e)
    (h : A.run s es = some s') :
    (es.map cost).sum + credit s' + earned s ≤ credit s + earned s' + (es.map income).sum := by
  induction es generalizing s with
  | nil =>
    obtain rfl := Option.some.inj h
    simp
  | cons e es ih =>
    obtain ⟨s₁, he, hes⟩ := run_cons.1 h
    have hhead := hstep s e s₁ he
    have htail := ih hes
    simp only [List.map_cons, List.sum_cons]
    omega

/-- The output `b` is made by the event at the place `k`. -/
def OutAt (A : Automaton σ ε) (out : σ → ε → List β) (s : σ) (es : List ε) (k : ℕ) (b : β) : Prop :=
  ∃ pre e post s₁, es = pre ++ e :: post ∧ pre.length = k ∧ A.run s pre = some s₁ ∧ b ∈ out s₁ e

/-- **Every output has a place**, and no two the same, if no event makes more than one. -/
theorem exists_places (hout : ∀ s e, (out s e).length ≤ 1) (h : A.run s es = some s') :
    ∃ ks : List ℕ, ks.Nodup ∧ List.Forall₂ (A.OutAt out s es) ks (A.trace out s es) := by
  induction es generalizing s with
  | nil => exact ⟨[], List.nodup_nil, .nil⟩
  | cons e es ih =>
    obtain ⟨s₁, he, hes⟩ := run_cons.1 h
    obtain ⟨ks, hnodup, hks⟩ := ih hes
    have hlater : List.Forall₂ (A.OutAt out s (e :: es)) (ks.map Nat.succ) (A.trace out s₁ es) := by
      rw [List.forall₂_map_left_iff]
      refine hks.imp fun k b hk => ?_
      obtain ⟨pre, e', post, s₂, rfl, rfl, hpre, hb⟩ := hk
      exact ⟨e :: pre, e', post, s₂, rfl, rfl, run_cons.2 ⟨s₁, he, hpre⟩, hb⟩
    have hsucc : (ks.map Nat.succ).Nodup := (List.nodup_map_iff Nat.succ_injective).2 hnodup
    rw [trace_cons he]
    have hlen := hout s e
    rcases hb : out s e with _ | ⟨b, bs⟩
    · exact ⟨ks.map Nat.succ, hsucc, hlater⟩
    · obtain rfl : bs = [] := by
        rw [hb] at hlen
        exact List.length_eq_zero_iff.1 (Nat.le_zero.1 (Nat.le_of_succ_le_succ hlen))
      refine ⟨0 :: ks.map Nat.succ, ?_, .cons ?_ hlater⟩
      · simpa using hsucc
      · exact ⟨[], e, es, s, rfl, rfl, rfl, by rw [hb]; exact List.mem_singleton.2 rfl⟩

end Automaton

/-! ## Matched lists -/

variable {α β γ : Type*} {R : α → β → Prop}

theorem forall₂_comp {S : β → γ → Prop} {T : α → γ → Prop} {ks : List α} {l : List β} {m : List γ}
    (h : List.Forall₂ R ks l) (h' : List.Forall₂ S l m) (hT : ∀ a b c, R a b → S b c → T a c) :
    List.Forall₂ T ks m := by
  induction h generalizing m with
  | nil =>
    cases h' with
    | nil => exact .nil
  | cons hab _ ih =>
    cases h' with
    | cons hbc hl => exact .cons (hT _ _ _ hab hbc) (ih hl)

theorem exists_forall₂_of_sublist {l l' : List β} (hsub : l'.Sublist l) {ks : List α}
    (h : List.Forall₂ R ks l) : ∃ ks', ks'.Sublist ks ∧ List.Forall₂ R ks' l' := by
  induction hsub generalizing ks with
  | slnil => exact ⟨ks, List.Sublist.refl _, h⟩
  | cons b _ ih =>
    cases h with
    | cons hb hks =>
      obtain ⟨ks', hsub, hks'⟩ := ih hks
      exact ⟨ks', hsub.cons _, hks'⟩
  | cons_cons b _ ih =>
    cases h with
    | cons hb hks =>
      obtain ⟨ks', hsub, hks'⟩ := ih hks
      exact ⟨_ :: ks', hsub.cons_cons _, .cons hb hks'⟩

/-- A part of one side of a matching, in another order, is matched with a part of the other side. -/
theorem exists_forall₂_of_subperm {l l' : List β} (hsub : l'.Subperm l) {ks : List α}
    (h : List.Forall₂ R ks l) : ∃ ks', ks'.Subperm ks ∧ List.Forall₂ R ks' l' := by
  obtain ⟨l₀, hperm, hsub⟩ := hsub
  obtain ⟨ks₀, hks, hmatched⟩ := exists_forall₂_of_sublist hsub h
  obtain ⟨ks', hks', hperm'⟩ := List.perm_comp_forall₂ hperm.symm hmatched.flip
  exact ⟨ks', hperm'.subperm.trans hks.subperm, hks'.flip⟩

end PaySystem
