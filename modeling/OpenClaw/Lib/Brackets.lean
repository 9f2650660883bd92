import Mathlib.Data.List.Basic

/-!
# Well nested words

A word of brackets, with other letters between them, is well nested when every bracket
that opens is closed once, the last one that opened first. Read with a stack, it is a
word that leaves the stack as it found it.
-/

namespace OpenClaw.Brackets

/-- A bracket `a` that opens or closes, or another letter. -/
inductive Letter (α : Type u) (β : Type v) where
  | opened (a : α)
  | closed (a : α)
  | plain (b : β)
  deriving DecidableEq

inductive Nested : List (Letter α β) → Prop
  | nil : Nested []
  | plain : Nested word → Nested (.plain b :: word)
  | bracket {inner rest : List (Letter α β)} : Nested inner → Nested rest →
      Nested (.opened a :: (inner ++ .closed a :: rest))

variable {α : Type u} {β : Type v}

def plainLetters (word : List (Letter α β)) : List β :=
  word.filterMap fun
    | .plain b => some b
    | _ => none

@[simp] theorem plainLetters_append (word word' : List (Letter α β)) :
    plainLetters (word ++ word') = plainLetters word ++ plainLetters word' := List.filterMap_append

@[simp] theorem plainLetters_plain (b : β) (word : List (Letter α β)) :
    plainLetters (.plain b :: word) = b :: plainLetters word := rfl

@[simp] theorem plainLetters_map_opened (brackets : List α) :
    plainLetters (brackets.map (.opened : α → Letter α β)) = [] := by
  simp [plainLetters]

@[simp] theorem plainLetters_map_closed (brackets : List α) :
    plainLetters (brackets.map (.closed : α → Letter α β)) = [] := by
  simp [plainLetters]

/-- The word closes the brackets of the stack, one after another, and is well nested between. -/
inductive Closes : List α → List (Letter α β) → Prop
  | nested : Nested word → Closes [] word
  | close {inner rest : List (Letter α β)} : Nested inner → Closes stack rest →
      Closes (a :: stack) (inner ++ .closed a :: rest)

theorem Closes.plain (h : Closes stack word) : Closes stack (.plain b :: word) := by
  cases h with
  | nested hword => exact .nested hword.plain
  | close hinner hrest => exact .close hinner.plain hrest

theorem Closes.bracket {inner rest : List (Letter α β)} (h : Closes stack rest) (hinner : Nested inner) :
    Closes stack (.opened a :: (inner ++ .closed a :: rest)) := by
  cases h with
  | nested hrest => exact .nested (.bracket hinner hrest)
  | @close stack b inner' rest hinner' hrest =>
    have heq : .opened a :: (inner ++ .closed a :: (inner' ++ .closed b :: rest)) =
        (.opened a :: (inner ++ .closed a :: inner')) ++ (.closed b : Letter α β) :: rest := by
      rw [List.cons_append, List.append_assoc, List.cons_append]
    rw [heq]
    exact .close (.bracket hinner hinner') hrest

section Reading

variable [DecidableEq α]

/-- The brackets that are open behind the word, the last one first; `none` where one closes
that is not on top. -/
def read : List α → List (Letter α β) → Option (List α)
  | stack, [] => some stack
  | stack, .plain _ :: word => read stack word
  | stack, .opened a :: word => read (a :: stack) word
  | a :: stack, .closed b :: word => if a = b then read stack word else none
  | [], .closed _ :: _ => none

theorem read_append (stack : List α) (word word' : List (Letter α β)) :
    read stack (word ++ word') = (read stack word).bind fun stack => read stack word' := by
  fun_induction read stack word with
  | case1 => rfl
  | case2 stack b word ih => exact ih
  | case3 stack a word ih => exact ih
  | case4 stack a word ih => rw [List.cons_append, read, if_pos rfl, ih]
  | case5 stack a b word hne => rw [List.cons_append, read, if_neg hne]; rfl
  | case6 => rfl

theorem Nested.read (h : Nested word) (stack : List α) : read stack word = some stack := by
  induction h generalizing stack with
  | nil => rfl
  | plain _ ih => exact ih stack
  | @bracket a inner rest _ _ ihInner ihRest =>
    rw [Brackets.read, read_append, ihInner, Option.bind_some, Brackets.read, if_pos rfl, ihRest]

theorem closes_of_read {word : List (Letter α β)} (h : read stack word = some []) : Closes stack word := by
  fun_induction Brackets.read stack word with
  | case1 stack =>
    obtain rfl := Option.some.inj h
    exact .nested .nil
  | case2 stack b word ih => exact (ih h).plain
  | case3 stack a word ih =>
    cases ih h with
    | close hinner hrest => exact hrest.bracket hinner
  | case4 stack a word ih => exact .close .nil (ih h)
  | case5 => cases h
  | case6 => cases h

theorem nested_iff_read {word : List (Letter α β)} : Nested word ↔ read [] word = some [] := by
  constructor
  · exact fun h => h.read []
  · intro h
    cases closes_of_read h with
    | nested hword => exact hword

end Reading

end OpenClaw.Brackets
