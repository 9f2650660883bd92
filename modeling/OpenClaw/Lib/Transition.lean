/-!
# Labelled transition systems

A system is a set of initial states and a partial step function. Safety is
proved by an invariant: it holds initially, every step keeps it, so it holds
in every reachable state. `restrict` keeps the steps that meet a condition on
the state before them, which is how a result about only some runs is stated.
-/

namespace OpenClaw.Transition

/-- States `σ`, labels `α`. `step` refuses a label it is not enabled for. -/
structure System (σ : Type u) (α : Type v) where
  init : σ → Prop
  step : σ → α → Option σ

variable {σ : Type u} {α : Type v}

inductive System.Reachable (T : System σ α) : σ → Prop
  | init : T.init s → T.Reachable s
  | step : T.Reachable s → T.step s a = some s' → T.Reachable s'

/-- The runs all of whose steps meet `ok`. -/
inductive System.ReachableBy (T : System σ α) (ok : σ → α → Prop) : σ → Prop
  | init : T.init s → T.ReachableBy ok s
  | step : T.ReachableBy ok s → ok s a → T.step s a = some s' → T.ReachableBy ok s'

theorem System.Reachable.by_true {T : System σ α} (h : T.Reachable s) :
    T.ReachableBy (fun _ _ => True) s := by
  induction h with
  | init h => exact .init h
  | step _ hs ih => exact .step ih trivial hs

theorem System.ReachableBy.mono {T : System σ α} {ok ok' : σ → α → Prop}
    (himp : ∀ s a, ok s a → ok' s a) (h : T.ReachableBy ok s) : T.ReachableBy ok' s := by
  induction h with
  | init h => exact .init h
  | step _ hok hs ih => exact .step ih (himp _ _ hok) hs

/-- The invariant rule for the runs whose steps meet `ok`. -/
theorem System.ReachableBy.invariant {T : System σ α} {ok : σ → α → Prop} {I : σ → Prop}
    (hinit : ∀ s, T.init s → I s)
    (hstep : ∀ s a s', I s → ok s a → T.step s a = some s' → I s')
    (h : T.ReachableBy ok s) : I s := by
  induction h with
  | init h => exact hinit _ h
  | step _ hok hs ih => exact hstep _ _ _ ih hok hs

/-- The invariant rule for every run. -/
theorem System.Reachable.invariant {T : System σ α} {I : σ → Prop}
    (hinit : ∀ s, T.init s → I s) (hstep : ∀ s a s', I s → T.step s a = some s' → I s')
    (h : T.Reachable s) : I s :=
  h.by_true.invariant hinit fun s a s' hi _ => hstep s a s' hi

/-- The steps of a list of labels, one after another. -/
def System.run (T : System σ α) (s : σ) : List α → Option σ
  | [] => some s
  | a :: as => (T.step s a).bind fun s' => T.run s' as

theorem System.run_append (T : System σ α) (s : σ) (as bs : List α) :
    T.run s (as ++ bs) = (T.run s as).bind fun m => T.run m bs := by
  induction as generalizing s with
  | nil => rfl
  | cons a as ih =>
    simp only [List.cons_append, System.run, Option.bind_assoc]
    cases T.step s a with
    | none => rfl
    | some m => exact ih m

theorem System.Reachable.run {T : System σ α} (h : T.Reachable s) (hr : T.run s as = some s') :
    T.Reachable s' := by
  induction as generalizing s with
  | nil => cases hr; exact h
  | cons a as ih =>
    simp only [System.run, Option.bind_eq_some_iff] at hr
    obtain ⟨m, hm, hr⟩ := hr
    exact ih (.step h hm) hr

/-- The steps of a list of labels, as long as each meets `ok`. -/
def System.runBy (T : System σ α) (ok : σ → α → Prop) [∀ s a, Decidable (ok s a)] (s : σ) :
    List α → Option σ
  | [] => some s
  | a :: as => if ok s a then (T.step s a).bind fun s' => T.runBy ok s' as else none

theorem System.ReachableBy.runBy {T : System σ α} {ok : σ → α → Prop}
    [∀ s a, Decidable (ok s a)] (h : T.ReachableBy ok s) (hr : T.runBy ok s as = some s') :
    T.ReachableBy ok s' := by
  induction as generalizing s with
  | nil => cases hr; exact h
  | cons a as ih =>
    simp only [System.runBy, Option.ite_none_right_eq_some, Option.bind_eq_some_iff] at hr
    obtain ⟨hok, m, hm, hr⟩ := hr
    exact ih (.step h hok hm) hr

end OpenClaw.Transition
