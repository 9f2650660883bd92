import OpenClaw.Infra.Exec.AllowAlways
import OpenClaw.Js.RegExp
import OpenClaw.Lib.Delimited

/-!
# Argument patterns

What an argument pattern matches. The pattern built from an argv matches the argvs with the
same arguments up to slash direction, except that it takes no arguments and two empty ones
for the same.
-/

namespace OpenClaw.Exec

open Js Delimited

section Matching

variable (host : Host)

/-- The alternatives of `TRAILING_SHELL_REDIRECTIONS_RE`. -/
def TRAILING_SHELL_REDIRECTIONS : List Text :=
  ["1>&1", "1>&2", "2>&1", "2>&2", "1>/dev/null", "2>/dev/null"].map String.toList

/-- `prev.replace(TRAILING_SHELL_REDIRECTIONS_RE, "")` where the expression matches. -/
def withoutTrailingRedirection? (prev : Text) : Option Text :=
  let trimmed := prev.rdropWhile isSpace
  TRAILING_SHELL_REDIRECTIONS.findSome? fun redirection =>
    let front := trimmed.take (trimmed.length - redirection.length)
    if redirection.isSuffixOf trimmed && (front.getLast?.any isSpace) then
      some (front.rdropWhile isSpace)
    else none

theorem length_withoutTrailingRedirection? (h : withoutTrailingRedirection? prev = some next) :
    next.length < prev.length := by
  obtain ⟨redirection, -, hnext⟩ := List.exists_of_findSome?_eq_some h
  simp only [Option.ite_none_right_eq_some, Bool.and_eq_true] at hnext
  obtain ⟨⟨-, hlast⟩, hnext⟩ := hnext
  obtain rfl := Option.some.inj hnext
  set front := (prev.rdropWhile isSpace).take _
  -- the white space before the redirection goes with it
  have hne : front ≠ [] := by
    intro hnil
    rw [hnil] at hlast
    cases hlast
  have hlt : (front.rdropWhile isSpace).length < front.length := by
    refine lt_of_le_of_ne (List.rdropWhile_prefix isSpace front).length_le fun hlength => ?_
    have hkept := (List.rdropWhile_prefix isSpace front).eq_of_length hlength
    rw [List.rdropWhile_eq_self_iff] at hkept
    rw [List.getLast?_eq_some_getLast hne] at hlast
    exact hkept hne hlast
  have hfront : front.length ≤ (prev.rdropWhile isSpace).length := List.length_take_le' _ _
  exact hlt.trans_le (hfront.trans (List.rdropWhile_prefix isSpace prev).length_le)

def stripTrailingRedirections (prev : Text) : Text :=
  match _h : withoutTrailingRedirection? prev with
  | some next => stripTrailingRedirections next
  | none => prev
termination_by prev.length
decreasing_by exact length_withoutTrailingRedirection? _h

/-- The arguments as one text: behind each a separator, or two of them where there is none. -/
def argsText (args : List Text) : Text :=
  if args = [] then [NUL, NUL] else List.intercalate [NUL] args ++ [NUL]

/-- `compile` is `new RegExp(argPattern)` with its `test`. -/
def matchArgPattern (compile : Text → Option (Text → Bool)) (argPattern : Text) (argv : List Text)
    (platform : Option Text) : Bool :=
  let argsSlice := argv.drop 1
  let joinedByNul := argPattern.contains NUL
  let argsString := if joinedByNul then argsText argsSlice else List.intercalate [' '] argsSlice
  match compile argPattern with
  | none => false
  | some test =>
    let windows := isWindowsPlatform host (some (platform.getD host.platform.text))
    let normalized := backslashed argsString
    let stripped := stripTrailingRedirections argsString
    test argsString || (windows && normalized ≠ argsString && test normalized) ||
      (!joinedByNul && stripped ≠ argsString && test stripped)

end Matching

-- ---
-- Texts of arguments
-- ---

theorem argsText_cons (arg : Text) (args : List Text) :
    argsText (arg :: args) = joined NUL (arg :: args) [] := by
  induction args generalizing arg with
  | nil => simp [argsText, List.intercalate]
  | cons next args ih =>
    have hnext := ih next
    simp only [argsText, reduceCtorEq, if_false] at hnext ⊢
    rw [joined_cons, ← hnext]
    simp [List.intercalate]

/-- No arguments are written as two empty ones. -/
theorem argsText_nil : argsText [] = argsText [[], []] := rfl

theorem nul_notMem_backslashed {arg : Text} (h : NUL ∉ arg) : NUL ∉ backslashed arg := by
  intro hmem
  obtain ⟨c, hc, heq⟩ := List.mem_map.mp hmem
  split at heq
  · exact absurd heq (by decide)
  · exact h (heq ▸ hc)

theorem backslashed_argsText (args : List Text) :
    backslashed (argsText args) = argsText (args.map backslashed) := by
  cases args with
  | nil => decide
  | cons arg args =>
    rw [argsText_cons, List.map_cons, argsText_cons]
    exact map_joined (by decide) (arg :: args) []

/-- The two lists of arguments are none and two empty ones. -/
def NoneAndTwoEmpty (args args' : List Text) : Prop :=
  args = [] ∧ args' = [[], []] ∨ args = [[], []] ∧ args' = []

theorem argsText_eq_iff (h : ∀ arg ∈ args, NUL ∉ arg) (h' : ∀ arg ∈ args', NUL ∉ arg) :
    argsText args = argsText args' ↔ args = args' ∨ NoneAndTwoEmpty args args' := by
  have hempty : ∀ arg ∈ [[], []], NUL ∉ (arg : Text) := by decide
  constructor
  · intro heq
    cases args with
    | nil =>
      cases args' with
      | nil => exact .inl rfl
      | cons arg' args' =>
        rw [argsText_nil, argsText_cons, argsText_cons] at heq
        exact .inr (.inl ⟨rfl, (joined_injective hempty h' heq).symm⟩)
    | cons arg args =>
      cases args' with
      | nil =>
        rw [argsText_nil, argsText_cons, argsText_cons] at heq
        exact .inr (.inr ⟨joined_injective h hempty heq, rfl⟩)
      | cons arg' args' =>
        rw [argsText_cons, argsText_cons] at heq
        exact .inl (joined_injective h h' heq)
  · rintro (rfl | ⟨rfl, rfl⟩ | ⟨rfl, rfl⟩)
    · rfl
    · exact argsText_nil
    · exact argsText_nil.symm

theorem map_backslashed_eq_empties {args : List Text} :
    args.map backslashed = [[], []] ↔ args = [[], []] := by
  cases args with
  | nil => simp
  | cons arg args =>
    cases args with
    | nil => simp
    | cons next args => simp [backslashed]

theorem noneAndTwoEmpty_map {args args' : List Text} :
    NoneAndTwoEmpty (args.map backslashed) (args'.map backslashed) ↔
      NoneAndTwoEmpty args args' := by
  simp only [NoneAndTwoEmpty, map_backslashed_eq_empties, List.map_eq_nil_iff]

-- ---
-- Built patterns
-- ---

theorem escapeRegExpLiteral_eq (input : Text) :
    escapeRegExpLiteral input = RegExp.escape input := by
  have hsame : (".*+?^$\x7b\x7d()|[]\\".toList).Perm RegExp.SYNTAX_CHARACTERS := by decide
  unfold escapeRegExpLiteral RegExp.escape
  refine List.flatMap_congr fun c _ => ?_
  have hmem : ".*+?^$\x7b\x7d()|[]\\".toList.contains c = RegExp.SYNTAX_CHARACTERS.contains c := by
    simp only [List.contains_eq_mem, hsame.mem_iff]
  rw [hmem]

/-- The pattern is the anchored literal of the arguments' text. -/
theorem buildArgPatternFromArgv_eq {host : Host} {platform : Option Text}
    (h : isWindowsPlatform host (some (platform.getD host.platform.text)) = true)
    (argv : List Text) :
    buildArgPatternFromArgv host argv platform =
      some ('^' :: RegExp.escape (argsText ((argv.drop 1).map backslashed)) ++ ['$']) := by
  rw [buildArgPatternFromArgv, if_pos h]
  cases argv.drop 1 with
  | nil => decide
  | cons arg args =>
    have hnul : RegExp.escape [NUL] = [NUL] := by decide
    have hsplit (text : Text) : RegExp.escape (text ++ [NUL]) = RegExp.escape text ++ [NUL] := by
      rw [RegExp.escape, List.flatMap_append]
      exact congrArg (RegExp.escape text ++ ·) hnul
    simp [argsText, hsplit, escapeRegExpLiteral_eq]

theorem nul_mem_literal (args : List Text) : NUL ∈ RegExp.escape (argsText args) := by
  refine List.mem_flatMap.mpr ⟨NUL, ?_, by decide⟩
  unfold argsText
  split <;> simp

/-- A built pattern is tested against the arguments' text, and against it with backslashes. -/
theorem matchArgPattern_literal {host : Host} {platform : Option Text}
    {other : Text → Option (Text → Bool)}
    (h : isWindowsPlatform host (some (platform.getD host.platform.text)) = true) (args : List Text)
    (argv : List Text) :
    matchArgPattern host (RegExp.compile other)
        ('^' :: RegExp.escape (argsText (args.map backslashed)) ++ ['$']) argv platform = true ↔
      argsText ((argv.drop 1).map backslashed) = argsText (args.map backslashed) := by
  have hnul :
      ('^' :: RegExp.escape (argsText (args.map backslashed)) ++ ['$']).contains NUL = true := by
    simp [nul_mem_literal]
  have htwice (text : Text) : backslashed (backslashed text) = backslashed text := by
    rw [backslashed, backslashed, List.map_map]
    refine List.map_congr_left fun c _ => ?_
    by_cases hc : c = '/' <;> simp [hc]
  rw [matchArgPattern, RegExp.compile_literal]
  simp only [hnul, h, if_true, Bool.true_and, Bool.not_true, Bool.false_and, Bool.or_false,
    Bool.or_eq_true, Bool.and_eq_true, decide_eq_true_eq, backslashed_argsText]
  constructor
  · rintro (hraw | ⟨-, hnormal⟩)
    · -- the pattern has no slash, so a text that it matches as it stands has none
      have hslashes := congrArg backslashed hraw
      rw [backslashed_argsText, backslashed_argsText] at hslashes
      rw [hslashes, List.map_map]
      exact congrArg argsText (List.map_congr_left fun arg _ => htwice arg)
    · exact hnormal
  · intro hnormal
    by_cases hraw : argsText ((argv.drop 1).map backslashed) = argsText (argv.drop 1)
    · exact .inl (hraw ▸ hnormal)
    · exact .inr ⟨hraw, hnormal⟩

section Exact

variable {host : Host} {platform : Option Text} {a b : List Text}

/-- On Windows the pattern of `a` matches `b` exactly where their arguments are the same up to
slash direction, unless the one has no arguments and the other has two empty ones. -/
theorem matchArgPattern_exact_iff (other : Text → Option (Text → Bool))
    (hwindows : isWindowsPlatform host (some (platform.getD host.platform.text)) = true)
    (ha : ∀ arg ∈ a.drop 1, NUL ∉ arg) (hb : ∀ arg ∈ b.drop 1, NUL ∉ arg) :
    ∃ argPattern, buildArgPatternFromArgv host a platform = some argPattern ∧
      ((matchArgPattern host (RegExp.compile other) argPattern b platform = true ↔
          (a.drop 1).map backslashed = (b.drop 1).map backslashed) ↔
        ¬ NoneAndTwoEmpty (a.drop 1) (b.drop 1)) := by
  refine ⟨_, buildArgPatternFromArgv_eq hwindows a, ?_⟩
  have hplain {args : List Text} (h : ∀ arg ∈ args, NUL ∉ arg) :
      ∀ arg ∈ args.map backslashed, NUL ∉ arg := by
    intro slashed hslashed
    obtain ⟨arg, hmem, rfl⟩ := List.mem_map.mp hslashed
    exact nul_notMem_backslashed (h arg hmem)
  rw [matchArgPattern_literal hwindows, eq_comm, argsText_eq_iff (hplain ha) (hplain hb),
    noneAndTwoEmpty_map]
  constructor
  · -- the two lists of the exception are not the same
    rintro hexact (⟨hnone, hempty⟩ | ⟨hempty, hnone⟩)
    · have hsame := hexact.mp (.inr (.inl ⟨hnone, hempty⟩))
      rw [hnone, hempty] at hsame
      cases hsame
    · have hsame := hexact.mp (.inr (.inr ⟨hempty, hnone⟩))
      rw [hnone, hempty] at hsame
      cases hsame
  · exact fun hother => or_iff_left hother

end Exact

def windows : Option Text := some "win32".toList

def savedArgv : List Text := ["tool.exe", "C:\\a.b", ""].map String.toList

def runArgv : List Text := ["tool.exe", "C:/a.b", ""].map String.toList

theorem matchArgPattern_exact_sample :
    ∃ argPattern, buildArgPatternFromArgv sampleHost savedArgv windows = some argPattern ∧
      ((matchArgPattern sampleHost (RegExp.compile fun _ => none) argPattern runArgv windows =
            true ↔
          (savedArgv.drop 1).map backslashed = (runArgv.drop 1).map backslashed) ↔
        ¬ NoneAndTwoEmpty (savedArgv.drop 1) (runArgv.drop 1)) :=
  matchArgPattern_exact_iff (fun _ => none) (by decide) (by decide)
    (by decide)

/-- The pattern of a command without arguments lets two empty arguments through. -/
theorem not_matchArgPattern_exact :
    ¬ ∀ a b : List Text, (∀ arg ∈ a.drop 1, NUL ∉ arg) → (∀ arg ∈ b.drop 1, NUL ∉ arg) →
      ∃ argPattern, buildArgPatternFromArgv sampleHost a windows = some argPattern ∧
        (matchArgPattern sampleHost (RegExp.compile fun _ => none) argPattern b windows = true ↔
          (a.drop 1).map backslashed = (b.drop 1).map backslashed) := by
  intro h
  obtain ⟨argPattern, hbuild, hexact⟩ :=
    h ["tool.exe".toList] ["tool.exe".toList, [], []] (by decide) (by decide)
  have hpattern : buildArgPatternFromArgv sampleHost ["tool.exe".toList] windows =
      some ['^', NUL, NUL, '$'] := by decide
  obtain rfl := Option.some.inj (hpattern.symm.trans hbuild)
  exact absurd (hexact.mp (by decide)) (by decide)

end OpenClaw.Exec
