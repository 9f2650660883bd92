import Mathlib.Data.Rat.Floor
import OpenClaw.Js.CodeUnits

/-!
# Queue helpers

What the follow-up queue and the announce queue share: the settings a call brings, the
policy for a full queue, the texts of a summary and of a collected batch.
-/

namespace OpenClaw.QueueHelpers

open Js

inductive QueueDropPolicy
  | summarize
  | old
  | new
  deriving DecidableEq

inductive QueueMode
  | steer
  | followup
  | collect
  | steerBacklog
  | interrupt
  | queue
  deriving DecidableEq

structure QueueSettings where
  mode : QueueMode
  cap : Option Rat
  dropPolicy : Option QueueDropPolicy

structure QueueState (T : Type) where
  items : List T
  mode : QueueMode
  /-- 0 is no cap. -/
  cap : Nat
  dropPolicy : QueueDropPolicy
  droppedCount : Nat
  summaryLines : List CodeUnits

variable {T : Type}

-- ---
-- Settings
-- ---

def resolveCap (cap : Option Rat) (fallback : Nat) : Nat :=
  match cap with
  | some cap => if 0 < cap then ⌊cap⌋.toNat else fallback
  | none => fallback

def QueueState.applyQueueRuntimeSettings (target : QueueState T) (settings : QueueSettings) : QueueState T :=
  { target with
    mode := settings.mode
    cap := resolveCap settings.cap target.cap
    dropPolicy := settings.dropPolicy.getD target.dropPolicy }

def DEFAULT_QUEUE_CAP : Nat := 20
def DEFAULT_QUEUE_DROP : QueueDropPolicy := .summarize

/-- A new queue, before the settings are applied once more. -/
def createdQueue (settings : QueueSettings) : QueueState T where
  items := []
  mode := settings.mode
  cap := resolveCap settings.cap DEFAULT_QUEUE_CAP
  dropPolicy := settings.dropPolicy.getD DEFAULT_QUEUE_DROP
  droppedCount := 0
  summaryLines := []

-- ---
-- Texts
-- ---

def ascii (text : String) : CodeUnits := text.toList.map unit

def trimStart (text : CodeUnits) : CodeUnits := text.dropWhile isSpaceUnit
def trimEnd (text : CodeUnits) : CodeUnits := text.rdropWhile isSpaceUnit
def trimUnits (text : CodeUnits) : CodeUnits := trimEnd (trimStart text)

/-- `text.replace(/\s+/g, " ")`; `inSpace` after a white-space unit. -/
def collapseSpace (inSpace : Bool) : CodeUnits → CodeUnits
  | [] => []
  | u :: rest =>
    if isSpaceUnit u then if inSpace then collapseSpace true rest else unit ' ' :: collapseSpace true rest
    else u :: collapseSpace false rest

def elideQueueText (text : CodeUnits) (limit : Nat) : CodeUnits :=
  if text.length ≤ limit then text else trimEnd (text.take (limit - 1)) ++ ascii "…"

def buildQueueSummaryLine (text : CodeUnits) : CodeUnits :=
  elideQueueText (trimUnits (collapseSpace false text)) 160

/-- `summaryLine?.trim() || prompt.trim()` -/
def summaryText (summaryLine : Option CodeUnits) (prompt : CodeUnits) : CodeUnits :=
  let line := (summaryLine.map trimUnits).getD []
  if line = [] then trimUnits prompt else line

def joinUnits (separator : String) (parts : List CodeUnits) : CodeUnits := List.intercalate (ascii separator) parts

/-- `buildQueueSummaryPrompt` on a copy of the state; `none` where there is nothing to sum up. -/
def QueueState.previewQueueSummaryPrompt (queue : QueueState T) (noun : String) : Option CodeUnits :=
  if queue.dropPolicy ≠ .summarize || queue.droppedCount = 0 then none
  else
    let plural := if queue.droppedCount = 1 then "" else "s"
    let title := ascii s!"[Queue overflow] Dropped {queue.droppedCount} {noun}{plural} due to cap."
    let lines := if queue.summaryLines = [] then [] else
      ascii "Summary:" :: queue.summaryLines.map fun line => ascii "- " ++ line
    some (joinUnits "\n" (title :: lines))

def QueueState.clearQueueSummaryState (queue : QueueState T) : QueueState T :=
  { queue with droppedCount := 0, summaryLines := [] }

/-- `renderItem` of both queues. -/
def renderItem (prompt : CodeUnits) (index : Nat) : CodeUnits :=
  trimUnits (ascii s!"---\nQueued #{index + 1}\n" ++ prompt)

def buildCollectPrompt (title : String) (prompts : List CodeUnits) (summary : Option CodeUnits) : CodeUnits :=
  joinUnits "\n\n" (ascii title :: summary.toList ++ prompts.mapIdx fun index prompt => renderItem prompt index)

-- ---
-- A full queue
-- ---

/-- Items are removed to make room for one more. -/
def QueueState.dropsItems (queue : QueueState T) : Bool :=
  queue.cap ≠ 0 && queue.cap ≤ queue.items.length && queue.dropPolicy ≠ .new

/-- The queue after the policy, and whether there is room for an item. -/
def QueueState.applyQueueDropPolicy (queue : QueueState T) (summarize : T → CodeUnits) : QueueState T × Bool :=
  if queue.cap = 0 || queue.items.length < queue.cap then (queue, true)
  else if queue.dropPolicy = .new then (queue, false)
  else
    let dropCount := queue.items.length - queue.cap + 1
    let dropped := queue.items.take dropCount
    let spliced := { queue with items := queue.items.drop dropCount }
    if queue.dropPolicy = .summarize then
      let lines := queue.summaryLines ++ dropped.map fun item => buildQueueSummaryLine (summarize item)
      ({ spliced with
          droppedCount := queue.droppedCount + dropped.length
          summaryLines := lines.drop (lines.length - queue.cap) }, true)
    else (spliced, true)

-- ---
-- Channels
-- ---

/-- Where an item goes to: a key, or a channel of its own. -/
structure CrossKey where
  key : Option String
  cross : Bool

def hasCrossChannelItemsFrom (resolveKey : T → CrossKey) (keys : List String) (hasUnkeyed : Bool) : List T → Bool
  | [] => if keys.length = 0 then false else hasUnkeyed || 1 < keys.length
  | item :: items =>
    let resolved := resolveKey item
    if resolved.cross then true
    else if resolved.key.getD "" = "" then hasCrossChannelItemsFrom resolveKey keys true items
    else hasCrossChannelItemsFrom resolveKey (keys.insert (resolved.key.getD "")) hasUnkeyed items

def hasCrossChannelItems (resolveKey : T → CrossKey) (items : List T) : Bool :=
  hasCrossChannelItemsFrom resolveKey [] false items

@[simp] theorem hasCrossChannelItems_nil (resolveKey : T → CrossKey) : hasCrossChannelItems resolveKey [] = false :=
  rfl

-- ---
-- What the policy does
-- ---

theorem applyQueueDropPolicy_of_not_drops {queue : QueueState T} (h : queue.dropsItems = false)
    (summarize : T → CodeUnits) : (queue.applyQueueDropPolicy summarize).1 = queue := by
  unfold QueueState.applyQueueDropPolicy
  split
  case isTrue => rfl
  case isFalse hfull =>
    split
    case isTrue => rfl
    case isFalse hpolicy =>
      simp only [Bool.or_eq_true, decide_eq_true_eq, not_or, Nat.not_lt] at hfull
      have hdrops : queue.dropsItems = true := by simp [QueueState.dropsItems, hfull, hpolicy]
      rw [h] at hdrops
      cases hdrops

/-- Items go from the front only, and a summary counts each of them. -/
theorem applyQueueDropPolicy_spec (queue : QueueState T) (summarize : T → CodeUnits) :
    ∃ dropped, queue.items = dropped ++ (queue.applyQueueDropPolicy summarize).1.items ∧
      (queue.applyQueueDropPolicy summarize).1.droppedCount =
        queue.droppedCount + if queue.dropPolicy = .summarize then dropped.length else 0 := by
  unfold QueueState.applyQueueDropPolicy
  split
  case isTrue => exact ⟨[], by simp⟩
  case isFalse =>
    split
    case isTrue => exact ⟨[], by simp⟩
    case isFalse =>
      refine ⟨queue.items.take (queue.items.length - queue.cap + 1), ?_⟩
      split <;> simp_all

end OpenClaw.QueueHelpers
