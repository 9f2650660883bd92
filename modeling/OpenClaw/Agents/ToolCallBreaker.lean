import Mathlib.Data.List.GetD
import OpenClaw.Js.JsonText
import OpenClaw.Lib.MapState
import OpenClaw.Lib.Members

/-!
# The breaker on repeated calls

`handleToolExecutionStart` counts the tool calls of a run under a key made of the tool's name
and the text of the arguments, and reports a key once, at its tenth call.
-/

namespace OpenClaw.ToolCallBreaker

open Js (Text PlainValue stringify)
open Members (assign)

/-- The arguments of a call: a JSON value, or any other one with what `JSON.stringify` gives
where it does not throw, its own keys where it is an object, and `String` of it. -/
inductive Argument
  | plain (v : PlainValue)
  | other (written : Option Text) (ownKeys : Option (List Text)) (string : Text)

structure ToolStart where
  toolName : Text
  toolCallId : Text
  args : Argument
  /-- Whether the handler throws, where it is called. -/
  handlerThrows : Bool := false

structure LoopDetected where
  toolName : Text
  toolCallId : Text
  count : Nat
  threshold : Nat
  argKey : Text

structure SubscribeState where
  toolCallCounts : List (Text × Nat) := []
  toolLoopReportedKeys : List Text := []

inductive Effect
  | loopWarning (report : LoopDetected)
  | called (report : LoopDetected)
  | handlerWarning

def TOOL_LOOP_THRESHOLD : Nat := 10

def sortedKeys (keys : List Text) : List Text :=
  keys.mergeSort fun a b => Js.strLe (String.ofList a) (String.ofList b)

def argKey (toolName : Text) : Argument → Text
  | .plain v => toolName ++ ':' :: stringify v
  | .other (some written) _ _ => toolName ++ ':' :: written
  | .other none ownKeys string =>
    let keys := match ownKeys with
      | some keys => [','].intercalate (sortedKeys keys)
      | none => string
    toolName ++ ':' :: "[non-json:".toList ++ keys ++ [']']

def ToolStart.key (start : ToolStart) : Text := argKey start.toolName start.args

/-- The part of `handleToolExecutionStart` that counts; `hasHandler` where the run has an
`onToolLoopDetected`. -/
def handleToolExecutionStart (hasHandler : Bool) (s : SubscribeState) (start : ToolStart) :
    List Effect × SubscribeState :=
  let key := argKey start.toolName start.args
  let nextCount := (s.toolCallCounts.lookup key).getD 0 + 1
  let counted := { s with toolCallCounts := assign s.toolCallCounts key nextCount }
  if TOOL_LOOP_THRESHOLD ≤ nextCount ∧ key ∉ s.toolLoopReportedKeys then
    let report : LoopDetected :=
      ⟨start.toolName, start.toolCallId, nextCount, TOOL_LOOP_THRESHOLD, key⟩
    (.loopWarning report ::
        (if hasHandler then
          .called report :: (if start.handlerThrows then [.handlerWarning] else [])
        else []),
      { counted with toolLoopReportedKeys := s.toolLoopReportedKeys ++ [key] })
  else ([], counted)

/-- What the starts of a run do, one after another. -/
def effects (starts : List ToolStart) : List (List Effect) :=
  (mapState (handleToolExecutionStart true) {} starts).1

-- ---
-- Counts by key
-- ---

/-- How many of the starts have this key. -/
def counted (key : Text) (starts : List ToolStart) : Nat :=
  starts.countP fun start => start.key = key

structure Counts (starts : List ToolStart) (s : SubscribeState) : Prop where
  count : ∀ key, (s.toolCallCounts.lookup key).getD 0 = counted key starts
  reported : ∀ key, key ∈ s.toolLoopReportedKeys ↔ TOOL_LOOP_THRESHOLD ≤ counted key starts

variable {hasHandler : Bool} {s : SubscribeState} {starts before after : List ToolStart}
  {start : ToolStart}

theorem counted_concat (key : Text) (starts : List ToolStart) (start : ToolStart) :
    counted key (starts ++ [start]) = counted key starts + if start.key = key then 1 else 0 := by
  simp [counted, List.countP_append, List.countP_singleton]

theorem toolCallCounts_start : (handleToolExecutionStart hasHandler s start).2.toolCallCounts =
    assign s.toolCallCounts start.key ((s.toolCallCounts.lookup start.key).getD 0 + 1) := by
  unfold handleToolExecutionStart
  dsimp only
  split <;> rfl

theorem mem_reportedKeys_start :
    key ∈ (handleToolExecutionStart hasHandler s start).2.toolLoopReportedKeys ↔
      key ∈ s.toolLoopReportedKeys ∨
        key = start.key ∧ TOOL_LOOP_THRESHOLD ≤ (s.toolCallCounts.lookup start.key).getD 0 + 1 := by
  unfold handleToolExecutionStart
  dsimp only
  split
  case isTrue hreport =>
    rw [List.mem_append, List.mem_singleton]
    exact or_congr_right ⟨fun heq => ⟨heq, hreport.1⟩, And.left⟩
  case isFalse hquiet =>
    refine ⟨.inl, fun h => h.elim id ?_⟩
    rintro ⟨rfl, hnext⟩
    exact not_not.1 fun hnew => hquiet ⟨hnext, hnew⟩

theorem Counts.step (h : Counts starts s) (start : ToolStart) :
    Counts (starts ++ [start]) (handleToolExecutionStart hasHandler s start).2 where
  count key := by
    rw [toolCallCounts_start, Members.lookup_assign, counted_concat, h.count]
    by_cases hkey : key = start.key
    · simp [hkey]
    · simp [hkey, Ne.symm hkey, h.count]
  reported key := by
    rw [mem_reportedKeys_start, h.reported, h.count, counted_concat]
    by_cases hkey : key = start.key
    · subst hkey
      simp only [true_and, if_true]
      omega
    · simp [hkey, Ne.symm hkey]

theorem counts_run (starts : List ToolStart) :
    Counts starts (mapState (handleToolExecutionStart hasHandler) {} starts).2 := by
  induction starts using List.reverseRecOn with
  | nil => exact ⟨fun _ => rfl, fun _ => by simp [counted, TOOL_LOOP_THRESHOLD]⟩
  | append_singleton starts start ih =>
    rw [mapState.append]
    exact ih.step start

/-- The handler is called where nine starts before had the key. -/
theorem called_iff (h : Counts starts s) (start : ToolStart) :
    (∃ report, .called report ∈ (handleToolExecutionStart true s start).1) ↔
      counted start.key starts = 9 := by
  have hkey := h.reported start.key
  unfold handleToolExecutionStart
  dsimp only
  rw [h.count, show argKey start.toolName start.args = start.key from rfl]
  split
  case isTrue hreport =>
    rw [hkey, TOOL_LOOP_THRESHOLD] at hreport
    exact ⟨fun _ => by omega, fun _ => ⟨_, List.mem_cons_of_mem _ List.mem_cons_self⟩⟩
  case isFalse hquiet =>
    rw [hkey, TOOL_LOOP_THRESHOLD] at hquiet
    refine ⟨?_, fun hnine => absurd ⟨by omega, by omega⟩ hquiet⟩
    rintro ⟨report, hreport⟩
    cases hreport

theorem report_eq (h : Counts starts s)
    (hreport : .called report ∈ (handleToolExecutionStart true s start).1) :
    report = ⟨start.toolName, start.toolCallId, counted start.key starts + 1, TOOL_LOOP_THRESHOLD,
      start.key⟩ := by
  unfold handleToolExecutionStart at hreport
  dsimp only at hreport
  rw [h.count] at hreport
  split at hreport
  case isTrue =>
    split_ifs at hreport <;> simp_all [ToolStart.key]
  case isFalse => cases hreport

-- ---
-- Runs
-- ---

/-- The handler is called at the start in this place. -/
def Called (starts : List ToolStart) (place : Nat) : Prop :=
  ∃ report, .called report ∈ (effects starts).getD place []

mutual
/-- Equality of values: the members of an object have no order. -/
inductive Same : PlainValue → PlainValue → Prop
  | refl (v : PlainValue) : Same v v
  | arr : SameItems items items' → Same (.arr items) (.arr items')
  | obj : members.Perm ordered → SameMembers ordered members' → Same (.obj members) (.obj members')
inductive SameItems : List PlainValue → List PlainValue → Prop
  | nil : SameItems [] []
  | cons : Same v v' → SameItems items items' → SameItems (v :: items) (v' :: items')
inductive SameMembers : List (Text × PlainValue) → List (Text × PlainValue) → Prop
  | nil : SameMembers [] []
  | cons : Same v v' → SameMembers members members' →
      SameMembers ((k, v) :: members) ((k, v') :: members')
end

/-- The same tool with the same arguments. -/
def SameCall (start start' : ToolStart) : Prop :=
  start.toolName = start'.toolName ∧
    ∃ v v', start.args = .plain v ∧ start'.args = .plain v' ∧ Same v v'

open Classical in
/-- How often the call was started before. -/
noncomputable def earlier (before : List ToolStart) (start : ToolStart) : Nat :=
  before.countP fun other => SameCall other start

/-- What the breaker is for: it calls the handler at the tenth start of a call, only there and
so once, and counts no other call with it. -/
structure BreakerLaw (starts : List ToolStart) : Prop where
  tenth : ∀ before start after, starts = before ++ start :: after →
    (Called starts before.length ↔ earlier before start = 9)
  counts : ∀ before start after report, starts = before ++ start :: after →
    .called report ∈ (effects starts).getD before.length [] →
      report.count = earlier before start + 1
  once : ∀ before start between start' after,
    starts = before ++ start :: between ++ start' :: after →
    SameCall start start' → Called starts before.length →
      ¬ Called starts (before ++ start :: between).length

/-- Equal arguments are JSON values with their members in one order. -/
def WrittenAlike (starts : List ToolStart) : Prop :=
  (∀ start ∈ starts, ∃ v, start.args = .plain v) ∧
    ∀ start ∈ starts, ∀ start' ∈ starts, SameCall start start' → start.args = start'.args

theorem effects_place (before : List ToolStart) (start : ToolStart) (after : List ToolStart) :
    (effects (before ++ start :: after)).getD before.length [] =
      (handleToolExecutionStart true
        (mapState (handleToolExecutionStart true) {} before).2 start).1 := by
  rw [effects, mapState.append, List.getD_append_right _ _ _ _ (by simp)]
  simp

theorem sameCall_iff (h : WrittenAlike starts) (hstart : start ∈ starts)
    (hstart' : start' ∈ starts) : SameCall start start' ↔ start.key = start'.key := by
  constructor
  · intro hsame
    rw [ToolStart.key, ToolStart.key, hsame.1, h.2 start hstart start' hstart' hsame]
  · intro hkey
    obtain ⟨v, hv⟩ := h.1 start hstart
    obtain ⟨v', hv'⟩ := h.1 start' hstart'
    rw [ToolStart.key, ToolStart.key, hv, hv'] at hkey
    obtain ⟨hname, rfl⟩ := Js.colon_stringify_inj hkey
    exact ⟨hname, v, v, hv, hv', .refl v⟩

theorem earlier_eq (h : WrittenAlike (before ++ start :: after)) :
    earlier before start = counted start.key before := by
  refine List.countP_congr fun other hother => ?_
  simpa using sameCall_iff h (List.mem_append_left _ hother) (by simp)

theorem breakerLaw_of_writtenAlike (h : WrittenAlike starts) : BreakerLaw starts where
  tenth := by
    rintro before start after rfl
    rw [Called, effects_place, earlier_eq h]
    exact called_iff (counts_run before) start
  counts := by
    rintro before start after report rfl hreport
    rw [effects_place] at hreport
    rw [earlier_eq h, report_eq (counts_run before) hreport]
  once := by
    rintro before start between start' after rfl hsame hfirst hsecond
    have hkey := (sameCall_iff h (by simp) (by simp)).1 hsame
    rw [Called, List.append_assoc, List.cons_append, effects_place,
      called_iff (counts_run before)] at hfirst
    rw [Called, effects_place, called_iff (counts_run _), ← hkey] at hsecond
    simp only [counted, List.countP_append, List.countP_cons] at hfirst hsecond
    simp at hsecond
    omega

-- ---
-- Members in another order
-- ---

def call (members : List (Text × PlainValue)) : ToolStart where
  toolName := ['r', 'e', 'a', 'd']
  toolCallId := []
  args := .plain (.obj members)

def first : ToolStart := call [(['a'], .bool true), (['b'], .bool false)]
def second : ToolStart := call [(['b'], .bool false), (['a'], .bool true)]

theorem breakerLaw_repeated : BreakerLaw (List.replicate 10 first) :=
  breakerLaw_of_writtenAlike (by
    refine ⟨fun start hstart => ?_, fun start hstart start' hstart' _ => ?_⟩
    · rw [List.eq_of_mem_replicate hstart]
      exact ⟨_, rfl⟩
    · rw [List.eq_of_mem_replicate hstart, List.eq_of_mem_replicate hstart'])

/-- The tenth start of a call is not reported where its members stand in another order. -/
theorem not_breakerLaw_reordered : ¬ BreakerLaw (List.replicate 9 first ++ [second]) := by
  intro h
  have hsame : SameCall first second :=
    ⟨rfl, _, _, rfl, rfl, .obj (List.Perm.swap ..) (.cons (.refl _) (.cons (.refl _) .nil))⟩
  have hnine : earlier (List.replicate 9 first) second = 9 := by
    refine (List.countP_eq_length.2 fun other hother => ?_).trans (List.length_replicate ..)
    rw [List.eq_of_mem_replicate hother]
    simpa using hsame
  obtain ⟨report, hreport⟩ := (h.tenth _ _ [] rfl).2 hnine
  have hquiet : (effects (List.replicate 9 first ++ [second])).getD 9 [] = [] := rfl
  rw [List.length_replicate, hquiet] at hreport
  cases hreport

end OpenClaw.ToolCallBreaker
