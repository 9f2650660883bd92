import OpenClaw.Js.Text

/-!
# Regular expressions

Patterns of plain characters, escaped ones and anchors, with what they match. Where a pattern
is of another kind, what it matches is given.
-/

namespace OpenClaw.Js.RegExp

inductive Term
  | start
  | finish
  | char (c : Char)
  deriving DecidableEq

def SYNTAX_CHARACTERS : Text := "^$\\.*+?()[]\x7b\x7d|".toList

/-- The terms of a pattern, unless it has others than anchors and characters. -/
def terms? : Text → Option (List Term)
  | [] => some []
  | '\\' :: c :: rest => if SYNTAX_CHARACTERS.contains c then (terms? rest).map (.char c :: ·) else none
  | '^' :: rest => (terms? rest).map (.start :: ·)
  | '$' :: rest => (terms? rest).map (.finish :: ·)
  | c :: rest => if SYNTAX_CHARACTERS.contains c then none else (terms? rest).map (.char c :: ·)

/-- The terms match the beginning of the text that is left. -/
def matchesHere : List Term → Bool → Text → Bool
  | [], _, _ => true
  | .start :: terms, atStart, text => atStart && matchesHere terms atStart text
  | .finish :: terms, atStart, text => text = [] && matchesHere terms atStart text
  | .char _ :: _, _, [] => false
  | .char c :: terms, _, d :: text => c = d && matchesHere terms false text

/-- The terms match from some place of the text on. -/
def matchesSomewhere (terms : List Term) : Bool → Text → Bool
  | atStart, [] => matchesHere terms atStart []
  | atStart, c :: text => matchesHere terms atStart (c :: text) || matchesSomewhere terms false text

/-- `new RegExp(pattern)` with its `test`, `none` where it throws. -/
def compile (other : Text → Option (Text → Bool)) (pattern : Text) : Option (Text → Bool) :=
  match terms? pattern with
  | some terms => some (matchesSomewhere terms true)
  | none => other pattern

-- ---
-- Literals
-- ---

/-- Each syntax character behind a backslash. -/
def escape (text : Text) : Text :=
  text.flatMap fun c => if SYNTAX_CHARACTERS.contains c then ['\\', c] else [c]

theorem terms?_plain {c : Char} (h : SYNTAX_CHARACTERS.contains c = false) (rest : Text) :
    terms? (c :: rest) = (terms? rest).map (.char c :: ·) := by
  have hbackslash : c ≠ '\\' := by
    rintro rfl
    exact absurd h (by decide)
  have hstart : c ≠ '^' := by
    rintro rfl
    exact absurd h (by decide)
  have hfinish : c ≠ '$' := by
    rintro rfl
    exact absurd h (by decide)
  have hne : ¬ SYNTAX_CHARACTERS.contains c = true := by
    rw [h]
    exact Bool.false_ne_true
  rw [terms?, if_neg hne]
  · rintro d rest rfl
    exact fun _ => hbackslash rfl
  · exact hstart
  · exact hfinish

theorem terms?_escape (text rest : Text) :
    terms? (escape text ++ rest) = (terms? rest).map (text.map .char ++ ·) := by
  induction text with
  | nil => simp [escape]
  | cons c text ih =>
    have hcons : escape (c :: text) =
        (if SYNTAX_CHARACTERS.contains c then ['\\', c] else [c]) ++ escape text := rfl
    cases hc : SYNTAX_CHARACTERS.contains c with
    | true =>
      rw [hcons, hc, if_pos rfl]
      simp only [List.cons_append, List.nil_append]
      rw [terms?, if_pos hc, ih, Option.map_map]
      rfl
    | false =>
      rw [hcons, hc, if_neg Bool.false_ne_true]
      simp only [List.cons_append, List.nil_append]
      rw [terms?_plain hc, ih, Option.map_map]
      rfl

theorem matchesHere_literal (literal : Text) (atStart : Bool) (text : Text) :
    matchesHere (literal.map .char ++ [.finish]) atStart text = decide (text = literal) := by
  induction literal generalizing atStart text with
  | nil => simp [matchesHere]
  | cons c literal ih =>
    cases text with
    | nil => simp [matchesHere]
    | cons d text =>
      simp only [List.map_cons, List.cons_append, matchesHere, ih]
      simp [eq_comm]

/-- An anchored literal matches the text it spells only. -/
theorem compile_literal (other : Text → Option (Text → Bool)) (literal : Text) :
    compile other ('^' :: escape literal ++ ['$']) = some fun text => decide (text = literal) := by
  have hterms : terms? ('^' :: escape literal ++ ['$']) =
      some (.start :: (literal.map .char ++ [.finish])) := by
    have hfinish : terms? ['$'] = some [.finish] := rfl
    rw [List.cons_append, terms?, terms?_escape, hfinish]
    rfl
  have hlater (text : Text) :
      matchesSomewhere (.start :: (literal.map .char ++ [.finish])) false text = false := by
    induction text with
    | nil => rfl
    | cons c text ih => simp [matchesSomewhere, matchesHere, ih]
  unfold compile
  rw [hterms]
  refine congrArg some (funext fun text => ?_)
  cases text with
  | nil => simp [matchesSomewhere, matchesHere, matchesHere_literal]
  | cons c text => simp [matchesSomewhere, matchesHere, matchesHere_literal, hlater]

end OpenClaw.Js.RegExp
