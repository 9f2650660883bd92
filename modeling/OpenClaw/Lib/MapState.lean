import Mathlib.Data.List.Basic

/-!
# Mapping a list through a state

`mapState` maps a list from left to right and hands each element the state the
earlier ones left.
-/

namespace OpenClaw

variable {σ : Type u} {α : Type v} {β : Type w} {f : σ → α → β × σ}

def mapState (f : σ → α → β × σ) : σ → List α → List β × σ
  | s, [] => ([], s)
  | s, a :: l =>
    let (b, s) := f s a
    let (bs, s) := mapState f s l
    (b :: bs, s)

namespace mapState

@[simp] theorem nil (s : σ) : mapState f s [] = ([], s) := rfl

@[simp] theorem cons (s : σ) (a : α) (l : List α) :
    mapState f s (a :: l) =
      ((f s a).1 :: (mapState f (f s a).2 l).1, (mapState f (f s a).2 l).2) := rfl

theorem append (s : σ) (l₁ l₂ : List α) :
    mapState f s (l₁ ++ l₂) =
      ((mapState f s l₁).1 ++ (mapState f (mapState f s l₁).2 l₂).1,
        (mapState f (mapState f s l₁).2 l₂).2) := by
  induction l₁ generalizing s with
  | nil => rfl
  | cons a l₁ ih => simp [ih]

@[simp] theorem length (s : σ) (l : List α) : (mapState f s l).1.length = l.length := by
  induction l generalizing s with
  | nil => rfl
  | cons a l ih => simp [ih]

/-- A relation between the elements mapped so far and the state, kept by each
step, holds of the whole list. -/
theorem invariant {P : List (α × β) → σ → Prop} (hnil : P done s)
    (hstep : ∀ done s a, P done s → P (done ++ [(a, (f s a).1)]) (f s a).2) (l : List α) :
    P (done ++ l.zip (mapState f s l).1) (mapState f s l).2 := by
  induction l generalizing done s with
  | nil => simpa using hnil
  | cons a l ih => simpa using ih (hstep done s a hnil)

end mapState

end OpenClaw
