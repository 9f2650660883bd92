import OpenClaw.Js.Value

/-!
# Texts

Strings that are taken apart, as lists of characters.
-/

namespace OpenClaw.Js

abbrev Text := List Char

instance lawfulBEqText : LawfulBEq Text := inferInstance

/-- `text.split(/\r?\n/)` -/
def splitLines : Text → List Text
  | [] => [[]]
  | '\n' :: text => [] :: splitLines text
  | '\r' :: '\n' :: text => [] :: splitLines text
  | c :: text =>
    match splitLines text with
    | [] => [[c]]
    | line :: lines => (c :: line) :: lines

/-- `lines.join("\n")` -/
def joinLines (lines : List Text) : Text := List.intercalate ['\n'] lines

/-- A text that can stand on a line: no line feed, and no carriage return where
one would follow. -/
def IsLine (line : Text) : Prop :=
  '\n' ∉ line ∧ line.getLast? ≠ some '\r'

instance : DecidablePred IsLine := fun _ => inferInstanceAs (Decidable (_ ∧ _))

theorem splitLines_ne_nil (text : Text) : splitLines text ≠ [] := by
  fun_cases splitLines text <;> simp_all

theorem splitLines_cons {c : Char} (text : Text) (hfeed : c ≠ '\n')
    (hreturn : c = '\r' → text.head? ≠ some '\n') :
    ∃ line lines, splitLines text = line :: lines ∧ splitLines (c :: text) = (c :: line) :: lines := by
  obtain ⟨line, lines, hlines⟩ := List.exists_cons_of_ne_nil (splitLines_ne_nil text)
  refine ⟨line, lines, hlines, ?_⟩
  rw [splitLines, hlines]
  · exact hfeed
  · rintro rest rfl rfl
    exact hreturn rfl rfl

theorem IsLine.tail (h : IsLine (c :: line)) : IsLine line := by
  refine ⟨fun hfeed => h.1 (List.mem_cons_of_mem c hfeed), ?_⟩
  cases line with
  | nil => simp
  | cons d line => simpa using h.2

/-- A line is split off where its line feed is. -/
theorem splitLines_line (h : IsLine line) (text : Text) :
    splitLines (line ++ '\n' :: text) = line :: splitLines text := by
  induction line with
  | nil => rfl
  | cons c line ih =>
    have hfeed : c ≠ '\n' := fun heq => h.1 (heq ▸ List.mem_cons_self)
    have hreturn : c = '\r' → (line ++ '\n' :: text).head? ≠ some '\n' := by
      rintro rfl
      cases line with
      | nil => exact absurd rfl h.2
      | cons d line =>
        have hd : d ≠ '\n' := fun heq => h.1 (heq ▸ List.mem_cons_of_mem _ List.mem_cons_self)
        simpa using hd
    obtain ⟨first, lines, hlines, hsplit⟩ := splitLines_cons (line ++ '\n' :: text) hfeed hreturn
    rw [ih h.tail] at hlines
    obtain ⟨rfl, rfl⟩ := List.cons.inj hlines
    exact hsplit

theorem splitLines_last (h : '\n' ∉ line) : splitLines line = [line] := by
  induction line with
  | nil => rfl
  | cons c line ih =>
    simp only [List.mem_cons, not_or] at h
    have hreturn : c = '\r' → line.head? ≠ some '\n' := by
      rintro - hhead
      exact h.2 (List.mem_of_mem_head? hhead)
    obtain ⟨first, lines, hlines, hsplit⟩ := splitLines_cons line (Ne.symm h.1) hreturn
    rw [ih h.2] at hlines
    obtain ⟨rfl, rfl⟩ := List.cons.inj hlines
    exact hsplit

theorem IsLine.append (h : IsLine line) (h' : IsLine line') : IsLine (line ++ line') := by
  refine ⟨by simp [h.1, h'.1], ?_⟩
  cases line' with
  | nil => simpa using h.2
  | cons c line' =>
    rw [List.getLast?_append_of_ne_nil _ (List.cons_ne_nil c line')]
    exact h'.2

theorem joinLines_cons (line next : Text) (lines : List Text) :
    joinLines (line :: next :: lines) = line ++ '\n' :: joinLines (next :: lines) := by
  simp [joinLines, List.intercalate]

theorem joinLines_concat (line : Text) (lines : List Text) (last : Text) :
    joinLines (line :: (lines ++ [last])) = joinLines (line :: lines) ++ '\n' :: last := by
  induction lines generalizing line with
  | nil => simp [joinLines, List.intercalate]
  | cons next lines ih => rw [List.cons_append, joinLines_cons, ih, joinLines_cons, List.append_assoc]; rfl

theorem splitLines_joinLines (h : ∀ line ∈ lines, IsLine line) (hne : lines ≠ []) :
    splitLines (joinLines lines) = lines := by
  induction lines with
  | nil => exact absurd rfl hne
  | cons line lines ih =>
    obtain ⟨hline, hlines⟩ := List.forall_mem_cons.mp h
    cases lines with
    | nil => simpa [joinLines] using splitLines_last hline.1
    | cons next lines =>
      rw [joinLines_cons, splitLines_line hline, ih hlines (by simp)]

/-- A text with no white space at its ends is trimmed already. -/
theorem trimChars_eq_self {text : Text} (hfirst : ∀ c ∈ text.head?, isSpace c = false)
    (hlast : ∀ c ∈ text.getLast?, isSpace c = false) : trimChars text = text := by
  have hdrop : text.dropWhile isSpace = text := by
    cases text with
    | nil => rfl
    | cons c text => simp [hfirst c rfl]
  rw [trimChars, hdrop, List.rdropWhile_eq_self_iff]
  intro hne
  simpa using hlast _ (List.getLast?_eq_some_getLast hne)

/-- Trimming keeps a first character that is no white space. -/
@[simp] theorem trimChars_trimChars (text : Text) : trimChars (trimChars text) = trimChars text := by
  have hdrop : (trimChars text).dropWhile isSpace = trimChars text := by
    cases htrimmed : trimChars text with
    | nil => rfl
    | cons c trimmed =>
      have hprefix : c :: trimmed <+: text.dropWhile isSpace := htrimmed ▸ List.rdropWhile_prefix isSpace _
      have hhead : (text.dropWhile isSpace).head? = some c := by
        obtain ⟨rest, hrest⟩ := hprefix
        rw [← hrest]
        rfl
      have hc : isSpace c = false := by simpa [hhead] using List.head?_dropWhile_not isSpace text
      rw [List.dropWhile_cons_of_neg (by simp [hc])]
  rw [trimChars, hdrop]
  exact List.rdropWhile_idempotent isSpace _

theorem trim_trim (text : String) : trim (trim text) = trim text := by
  rw [trim, trim, String.toList_ofList, trimChars_trimChars]

/-- `value?.trim() || undefined` -/
def trimmed? (value : Option Text) : Option Text :=
  let trimmed := trimChars (value.getD [])
  if trimmed = [] then none else some trimmed

theorem trimmed?_eq_some {value : Option Text} :
    trimmed? value = some text ↔ text ≠ [] ∧ trimChars (value.getD []) = text := by
  unfold trimmed?
  dsimp only
  split
  case isTrue hempty =>
    constructor
    · rintro h
      cases h
    · rintro ⟨hne, rfl⟩
      exact absurd hempty hne
  case isFalse hne =>
    rw [Option.some.injEq]
    exact ⟨fun heq => ⟨heq ▸ hne, heq⟩, And.right⟩

@[simp] theorem trimmed?_trimmed? (value : Option Text) : trimmed? (trimmed? value) = trimmed? value := by
  cases h : trimmed? value with
  | none => rfl
  | some text =>
    obtain ⟨hne, rfl⟩ := trimmed?_eq_some.1 h
    exact trimmed?_eq_some.2 ⟨hne, trimChars_trimChars _⟩

theorem trimChars_cons {c : Char} (h : isSpace c = false) (text : Text) :
    ∃ rest, trimChars (c :: text) = c :: rest := by
  rw [trimChars, List.dropWhile_cons_of_neg (by simp [h])]
  obtain ⟨suffix, hsuffix⟩ := List.rdropWhile_prefix isSpace (c :: text)
  cases htrimmed : (c :: text).rdropWhile isSpace with
  | nil =>
    rw [List.rdropWhile_eq_nil_iff] at htrimmed
    have hc := htrimmed c List.mem_cons_self
    rw [h] at hc
    cases hc
  | cons d rest =>
    rw [htrimmed] at hsuffix
    obtain ⟨rfl, -⟩ := List.cons.inj hsuffix
    exact ⟨rest, rfl⟩

end OpenClaw.Js
