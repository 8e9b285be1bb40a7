import TrafficPlatform.Kit.Run
import Mathlib.Order.Defs.LinearOrder

/-!
# Machines that answer a run of requests

A machine is a function `step s e` from a state and a request to the answer and the next state. A
machine may forget a request that it refuses when a state in which it was made and one in which it
was not cannot be told apart by any later request (`Forgets`); then the refused requests of a run
may be left out, any of them, without an effect on the answers to the others (`Forgets.answers`).
-/

namespace Kit

variable {S E R T : Type*} {step : S → E → R × S}

/-- The requests of a run with their answers. -/
def answers (step : S → E → R × S) : S → List E → List (E × R)
  | _, [] => []
  | s, e :: es => (e, (step s e).1) :: answers step (step s e).2 es

/-- The state after the requests of a run. -/
abbrev after (step : S → E → R × S) (s : S) (es : List E) : S := run (fun s e => (step s e).2) s es

theorem after_invariant [LE T] (time : E → T) (Good : E → Prop) {I : T → S → Prop}
    (hstep : ∀ {t s e}, I t s → t ≤ time e → Good e → I (time e) (step s e).2) {t : T} {s : S}
    {es : List E} {e : E} (hi : I t s) (hs : (es ++ [e]).Pairwise fun e e' => time e ≤ time e')
    (hle : ∀ x ∈ es ++ [e], t ≤ time x)
    (hgood : ∀ x ∈ es ++ [e], Good x) : ∃ t', t' ≤ time e ∧ I t' (after step s es) := by
  induction es generalizing t s with
  | nil => exact ⟨t, hle e (by simp), hi⟩
  | cons x es ih =>
    obtain ⟨hrest, hs⟩ := List.pairwise_cons.1 hs
    exact ih (hstep hi (hle x (by simp)) (hgood x (by simp))) hs hrest
      fun y hy => hgood y (List.mem_cons_of_mem _ hy)

/-- A machine that counts down: it grants a request while some are left. -/
structure CountsDown (step : S → E → R × S) (granted : R → Bool → Prop)
    (Left : Nat → S → List E → Prop) : Prop where
  next : ∀ {n s e es}, Left n s (e :: es) → granted (step s e).1 (decide (0 < n)) ∧
    Left (n - 1) (step s e).2 es

/-- Exactly the first `n` of the requests are granted. -/
theorem CountsDown.answers {granted : R → Bool → Prop} {Left : Nat → S → List E → Prop}
    (h : CountsDown step granted Left) {n : Nat} {s : S} {es : List E} (hleft : Left n s es)
    {before : List (E × R)} {x : E × R} {rest : List (E × R)}
    (hx : Kit.answers step s es = before ++ x :: rest) : granted x.2 (decide (before.length < n)) := by
  induction before generalizing n s es with
  | nil =>
    cases es with
    | nil => cases hx
    | cons e es =>
      obtain ⟨rfl, -⟩ := List.cons.inj hx
      exact (h.next hleft).1
  | cons y before ih =>
    cases es with
    | nil => cases hx
    | cons e es =>
      have hlen : decide (before.length < n - 1) = decide ((y :: before).length < n) :=
        decide_eq_decide.2 (by rw [List.length_cons]; omega)
      exact hlen ▸ ih (h.next hleft).2 (List.cons.inj hx).2

/-- The second log is the first one without some of the requests that were refused. -/
inductive Drops (refused : R → Prop) : List (E × R) → List (E × R) → Prop
  | nil : Drops refused [] []
  | keep (x : E × R) {log log' : List (E × R)} (h : Drops refused log log') :
    Drops refused (x :: log) (x :: log')
  | drop (x : E × R) {log log' : List (E × R)} (hx : refused x.2) (h : Drops refused log log') :
      Drops refused (x :: log) log'

/-- States that `Sim t` relates answer the requests from time `t` on alike, and a refused request
may be made in one of them only. -/
structure Forgets [LE T] (step : S → E → R × S) (time : E → T) (Good : E → Prop) (refused : R → Prop)
    (Sim : T → S → S → Prop) : Prop where
  keep : ∀ {t s s' e}, Sim t s s' → t ≤ time e → Good e →
    (step s e).1 = (step s' e).1 ∧ Sim (time e) (step s e).2 (step s' e).2
  drop : ∀ {t s s' e}, Sim t s s' → t ≤ time e → Good e → refused (step s e).1 →
    Sim (time e) (step s e).2 s'

theorem Forgets.answers [LE T] {time : E → T} {Good : E → Prop} {refused : R → Prop}
    {Sim : T → S → S → Prop} (h : Forgets step time Good refused Sim) {t : T} {s s' : S}
    {es : List E} {log : List (E × R)} (hsim : Sim t s s')
    (hs : es.Pairwise fun e e' => time e ≤ time e') (hle : ∀ e ∈ es, t ≤ time e)
    (hgood : ∀ e ∈ es, Good e)
    (hd : Drops refused (answers step s es) log) : Kit.answers step s' (log.map (·.1)) = log := by
  induction es generalizing t s s' log with
  | nil => cases hd; rfl
  | cons e es ih =>
    obtain ⟨hrest, hs⟩ := List.pairwise_cons.1 hs
    have hte := hle e List.mem_cons_self
    have hge := hgood e List.mem_cons_self
    have hgood' := fun e he => hgood e (List.mem_cons_of_mem _ he)
    rw [Kit.answers] at hd
    cases hd with
    | keep _ hd =>
      obtain ⟨hanswer, hnext⟩ := h.keep hsim hte hge
      rw [List.map_cons, Kit.answers, ih hnext hs hrest hgood' hd, hanswer]
    | drop _ hx hd => exact ih (h.drop hsim hte hge hx) hs hrest hgood' hd

end Kit
