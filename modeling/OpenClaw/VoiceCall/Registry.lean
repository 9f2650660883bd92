import Mathlib.Data.List.Nodup
import Mathlib.Logic.Function.Basic
import Mathlib.Logic.Relation
import OpenClaw.Js.Text

/-!
# The call registry

The records of voice calls, the states they go through until they are finalised, and the
maps that lead to the active ones.
-/

namespace OpenClaw.VoiceCall

open Js

-- ---
-- Records
-- ---

abbrev CallId := Text
abbrev ProviderCallId := Text

inductive ProviderName where
  | telnyx
  | twilio
  | plivo
  | mock
  deriving DecidableEq

inductive EndReason where
  | completed
  | hangupUser
  | hangupBot
  | timeout
  | error
  | failed
  | noAnswer
  | busy
  | voicemail
  deriving DecidableEq

/-- The terminal states are the end reasons. -/
inductive CallState where
  | initiated
  | ringing
  | answered
  | active
  | speaking
  | listening
  | ended (reason : EndReason)
  deriving DecidableEq

inductive CallMode where
  | notify
  | conversation
  deriving DecidableEq

inductive CallDirection where
  | outbound
  | inbound
  deriving DecidableEq

inductive Speaker where
  | bot
  | user
  deriving DecidableEq

structure TranscriptEntry where
  speaker : Speaker
  text : Text
  deriving DecidableEq

structure CallMetadata where
  initialMessage : Option Text
  mode : Option CallMode
  turnCount : Option Nat
  deriving DecidableEq

structure CallRecord where
  providerCallId : Option ProviderCallId
  direction : CallDirection
  state : CallState
  answeredAt : Option Nat
  endedAt : Option Nat
  endReason : Option EndReason
  transcript : List TranscriptEntry
  metadata : CallMetadata
  deriving DecidableEq

/-- The provider call id, where it is not empty. -/
def CallRecord.connectedId? (call : CallRecord) : Option ProviderCallId := call.providerCallId.filter (· ≠ [])

-- ---
-- States
-- ---

/-- `TerminalStates.has(state)` -/
def CallState.IsTerminal (state : CallState) : Prop := ∃ reason, state = .ended reason

instance : DecidablePred CallState.IsTerminal
  | .ended reason => isTrue ⟨reason, rfl⟩
  | .initiated | .ringing | .answered | .active | .speaking | .listening => isFalse nofun

def ConversationStates : List CallState := [.speaking, .listening]

def StateOrder : List CallState := [.initiated, .ringing, .answered, .active, .speaking, .listening]

def transitionState (call : CallRecord) (newState : CallState) : CallRecord :=
  if call.state = newState ∨ call.state.IsTerminal then call
  else if newState.IsTerminal then { call with state := newState }
  else if call.state ∈ ConversationStates ∧ newState ∈ ConversationStates then { call with state := newState }
  else if StateOrder.idxOf call.state < StateOrder.idxOf newState then { call with state := newState }
  else call

def addTranscriptEntry (call : CallRecord) (speaker : Speaker) (text : Text) : CallRecord :=
  { call with transcript := call.transcript ++ [⟨speaker, text⟩] }

-- ---
-- The registry
-- ---

/-- The records, of finalised calls too, as who holds one may still write to it, and the
maps of the manager. -/
structure Registry where
  calls : CallId → Option CallRecord
  activeCalls : List CallId
  providerCallIdMap : ProviderCallId → Option CallId

namespace Registry

def put (r : Registry) (callId : CallId) (call : CallRecord) : Registry :=
  { r with calls := Function.update r.calls callId (some call) }

/-- Writes to the record of a call. -/
def edit (r : Registry) (callId : CallId) (write : CallRecord → CallRecord) : Registry :=
  match r.calls callId with
  | none => r
  | some call => r.put callId (write call)

/-- `activeCalls.set(callId, call)`, for a new call. -/
def add (r : Registry) (callId : CallId) (call : CallRecord) : Registry :=
  { r.put callId call with activeCalls := r.activeCalls ++ [callId] }

/-- `providerCallIdMap.set(providerCallId, callId)` -/
def mapTo (r : Registry) (providerCallId : ProviderCallId) (callId : CallId) : Registry :=
  { r with providerCallIdMap := Function.update r.providerCallIdMap providerCallId (some callId) }

/-- Removes a mapping that leads to the call. -/
def unmap (r : Registry) (providerCallId : ProviderCallId) (callId : CallId) : Registry :=
  if r.providerCallIdMap providerCallId = some callId then
    { r with providerCallIdMap := Function.update r.providerCallIdMap providerCallId none }
  else r

/-- `activeCalls.get(callId)` -/
def activeCall? (r : Registry) (callId : CallId) : Option CallRecord :=
  if callId ∈ r.activeCalls then r.calls callId else none

def removeProviderCallMapping (r : Registry) (callId : CallId) (call : CallRecord) : Registry :=
  match call.connectedId? with
  | none => r
  | some providerCallId => r.unmap providerCallId callId

/-- What `finalizeCall` does to the record and the maps. -/
def finalizeCall (r : Registry) (callId : CallId) (endReason : EndReason) (endedAt : Nat) : Registry :=
  match r.calls callId with
  | none => r
  | some call =>
    let r := r.put callId (transitionState { call with endedAt := some endedAt, endReason := some endReason } (.ended endReason))
    let r := { r with activeCalls := r.activeCalls.erase callId }
    r.removeProviderCallMapping callId call

def getCallByProviderCallId (r : Registry) (providerCallId : ProviderCallId) : Option CallId :=
  match r.providerCallIdMap providerCallId with
  | some callId => if callId ∈ r.activeCalls then some callId else none
  | none => r.activeCalls.find? fun callId => (r.calls callId).any (·.providerCallId = some providerCallId)

def findCall (r : Registry) (callIdOrProviderCallId : Text) : Option CallId :=
  if callIdOrProviderCallId ∈ r.activeCalls then some callIdOrProviderCallId
  else r.getCallByProviderCallId callIdOrProviderCallId

end Registry

end OpenClaw.VoiceCall

/-!
# How the registry changes

A registry changes by writes to a record that leave its end alone, by new calls, by other
provider call ids and by the end of an active call. A change of these kinds keeps the maps
right and moves every call forward, and what is finalised stays as it is.
-/

namespace OpenClaw.VoiceCall

variable {r r' : Registry} {callId : CallId} {providerCallId : ProviderCallId} {call call' : CallRecord}

-- ---
-- Forward
-- ---

/-- The place in the order, which speaking and listening share; the end is behind all. -/
def CallState.place : CallState → Nat
  | .initiated => 0
  | .ringing => 1
  | .answered => 2
  | .active => 3
  | .speaking => 4
  | .listening => 4
  | .ended _ => 5

/-- A state stays or moves to one that is no earlier in the order; the end stays. -/
def CallState.Forward (state state' : CallState) : Prop :=
  state = state' ∨ (¬ state.IsTerminal ∧ state.place ≤ state'.place)

theorem CallState.Forward.refl (state : CallState) : state.Forward state := .inl rfl

theorem CallState.Forward.trans {state state' state'' : CallState} (h : state.Forward state')
    (h' : state'.Forward state'') : state.Forward state'' := by
  rcases h with rfl | ⟨hgoing, hle⟩
  · exact h'
  · rcases h' with rfl | ⟨-, hle'⟩
    · exact .inr ⟨hgoing, hle⟩
    · exact .inr ⟨hgoing, hle.trans hle'⟩

theorem CallState.isTerminal_ended (reason : EndReason) : (CallState.ended reason).IsTerminal := ⟨reason, rfl⟩

theorem transitionState_forward (call : CallRecord) (newState : CallState) :
    call.state.Forward (transitionState call newState).state := by
  unfold transitionState
  split_ifs with hstop hend hconversation horder
  · exact .refl _
  · obtain ⟨reason, rfl⟩ := hend
    refine .inr ⟨fun hterminal => hstop (.inr hterminal), ?_⟩
    cases call.state <;> simp [CallState.place]
  · exact .inr ⟨fun hterminal => hstop (.inr hterminal), by
      revert hconversation
      cases call.state <;> cases newState <;> simp [ConversationStates, CallState.place]⟩
  · exact .inr ⟨fun hterminal => hstop (.inr hterminal), by
      revert horder
      cases call.state <;> cases newState <;> simp [StateOrder, CallState.place]⟩
  · exact .refl _

theorem transitionState_isTerminal {newState : CallState} (hnew : ¬ newState.IsTerminal)
    (h : ¬ call.state.IsTerminal) : ¬ (transitionState call newState).state.IsTerminal := by
  unfold transitionState
  split_ifs <;> assumption

theorem transitionState_ended (h : ¬ call.state.IsTerminal) (reason : EndReason) :
    transitionState call (.ended reason) = { call with state := .ended reason } := by
  unfold transitionState
  have hne : ¬ (call.state = .ended reason ∨ call.state.IsTerminal) := by
    rintro (heq | hterminal)
    · exact h (heq ▸ CallState.isTerminal_ended reason)
    · exact h hterminal
  rw [if_neg hne, if_pos (CallState.isTerminal_ended reason)]

theorem transitionState_eq (call : CallRecord) (newState : CallState) :
    ∃ state, transitionState call newState = { call with state := state } := by
  unfold transitionState
  split_ifs
  all_goals exact ⟨_, rfl⟩

-- ---
-- Records
-- ---

def CallRecord.Finalised (call : CallRecord) : Prop := call.endedAt ≠ none

/-- A later state of a record. -/
structure CallRecord.Later (call call' : CallRecord) : Prop where
  forward : call.state.Forward call'.state
  final : call.Finalised → call'.state = call.state ∧ call'.endReason = call.endReason ∧ call'.endedAt = call.endedAt

theorem CallRecord.Later.refl (call : CallRecord) : call.Later call := ⟨.refl _, fun _ => ⟨rfl, rfl, rfl⟩⟩

theorem CallRecord.Later.trans {call'' : CallRecord} (h : call.Later call') (h' : call'.Later call'') :
    call.Later call'' where
  forward := h.forward.trans h'.forward
  final hfinal := by
    obtain ⟨hstate, hreason, hat⟩ := h.final hfinal
    obtain ⟨hstate', hreason', hat'⟩ := h'.final (by rw [CallRecord.Finalised, hat]; exact hfinal)
    exact ⟨hstate'.trans hstate, hreason'.trans hreason, hat'.trans hat⟩

/-- A write that neither ends the call nor gives it another provider call id. -/
structure CallRecord.Edited (call call' : CallRecord) : Prop where
  providerCallId : call'.providerCallId = call.providerCallId
  endedAt : call'.endedAt = call.endedAt
  forward : call.state.Forward call'.state
  going : ¬ call.state.IsTerminal → ¬ call'.state.IsTerminal
  endReason : call.state.IsTerminal → call'.endReason = call.endReason

theorem CallRecord.Edited.trans {call'' : CallRecord} (h : call.Edited call') (h' : call'.Edited call'') :
    call.Edited call'' where
  providerCallId := h'.providerCallId.trans h.providerCallId
  endedAt := h'.endedAt.trans h.endedAt
  forward := h.forward.trans h'.forward
  going hgoing := h'.going (h.going hgoing)
  endReason hterminal := by
    have hterminal' : call'.state.IsTerminal := by
      rcases h.forward with heq | ⟨hgoing, -⟩
      · exact heq ▸ hterminal
      · exact absurd hterminal hgoing
    exact (h'.endReason hterminal').trans (h.endReason hterminal)

theorem CallRecord.Edited.transitionState {newState : CallState} (h : call.Edited call')
    (hnew : ¬ newState.IsTerminal) : call.Edited (VoiceCall.transitionState call' newState) := by
  refine h.trans ?_
  obtain ⟨state, hstate⟩ := transitionState_eq call' newState
  constructor
  · rw [hstate]
  · rw [hstate]
  · exact transitionState_forward _ _
  · exact transitionState_isTerminal hnew
  · rw [hstate]
    exact fun _ => rfl

theorem CallRecord.Edited.refl (call : CallRecord) : call.Edited call :=
  ⟨rfl, rfl, .refl _, id, fun _ => rfl⟩

-- ---
-- The invariant
-- ---

structure Registry.Sound (r : Registry) : Prop where
  nodup : r.activeCalls.Nodup
  active : ∀ callId, callId ∈ r.activeCalls ↔ ∃ call, r.calls callId = some call ∧ ¬ call.Finalised
  going : ∀ callId call, r.calls callId = some call → ¬ call.Finalised → ¬ call.state.IsTerminal
  final : ∀ callId call, r.calls callId = some call → call.Finalised →
    ∃ reason, call.state = .ended reason ∧ call.endReason = some reason
  connected : ∀ callId call, r.calls callId = some call → call.providerCallId ≠ some []
  map : ∀ providerCallId callId, r.providerCallIdMap providerCallId = some callId ↔
    callId ∈ r.activeCalls ∧ ∃ call, r.calls callId = some call ∧ call.providerCallId = some providerCallId

/-- Every call is kept, in a later state. -/
def Registry.Later (r r' : Registry) : Prop :=
  ∀ callId call, r.calls callId = some call → ∃ call', r'.calls callId = some call' ∧ call.Later call'

theorem Registry.Later.refl (r : Registry) : r.Later r := fun _ call hcall => ⟨call, hcall, .refl call⟩

theorem Registry.Later.trans {r'' : Registry} (h : r.Later r') (h' : r'.Later r'') : r.Later r'' := by
  intro callId call hcall
  obtain ⟨call', hcall', hlater⟩ := h callId call hcall
  obtain ⟨call'', hcall'', hlater'⟩ := h' callId call' hcall'
  exact ⟨call'', hcall'', hlater.trans hlater'⟩

/-- The provider call id leads to no other call. -/
def Registry.IsFree (r : Registry) (providerCallId : ProviderCallId) (callId : CallId) : Prop :=
  ∀ other, r.providerCallIdMap providerCallId = some other → other = callId

/-- Gives the call another provider call id. -/
def Registry.identified (r : Registry) (callId : CallId) (call : CallRecord) (providerCallId : ProviderCallId) :
    Registry :=
  ((r.put callId { call with providerCallId := some providerCallId }).mapTo providerCallId callId).removeProviderCallMapping
    callId call

-- ---
-- Changes
-- ---

/-- A change to a call there is. -/
inductive Registry.Write : Registry → Registry → Prop
  | edited {r : Registry} {callId : CallId} {call call' : CallRecord} :
      r.calls callId = some call → call.Edited call' → Write r (r.put callId call')
  | identified {r : Registry} {callId : CallId} {call : CallRecord} {providerCallId : ProviderCallId} :
      r.activeCall? callId = some call → call.providerCallId ≠ some providerCallId → providerCallId ≠ [] →
      r.IsFree providerCallId callId → Write r (r.identified callId call providerCallId)
  | finalized {r : Registry} {callId : CallId} :
      callId ∈ r.activeCalls → Write r (r.finalizeCall callId reason endedAt)

inductive Registry.Change : Registry → Registry → Prop
  | write {r r' : Registry} : r.Write r' → Change r r'
  | added {r : Registry} {callId : CallId} {call : CallRecord} :
      r.calls callId = none → ¬ call.Finalised → ¬ call.state.IsTerminal → call.providerCallId = none →
      Change r (r.add callId call)

namespace Registry

section Lookups

variable (r) (callId other : CallId) (providerCallId providerCallId' : ProviderCallId) (call : CallRecord)

@[simp] theorem put_calls : (r.put callId call).calls other = if other = callId then some call else r.calls other :=
  Function.update_apply ..

@[simp] theorem put_activeCalls : (r.put callId call).activeCalls = r.activeCalls := rfl

@[simp] theorem put_providerCallIdMap : (r.put callId call).providerCallIdMap = r.providerCallIdMap := rfl

@[simp] theorem add_calls : (r.add callId call).calls other = if other = callId then some call else r.calls other :=
  Function.update_apply ..

@[simp] theorem add_activeCalls : (r.add callId call).activeCalls = r.activeCalls ++ [callId] := rfl

@[simp] theorem add_providerCallIdMap : (r.add callId call).providerCallIdMap = r.providerCallIdMap := rfl

@[simp] theorem mapTo_calls : (r.mapTo providerCallId callId).calls = r.calls := rfl

@[simp] theorem mapTo_activeCalls : (r.mapTo providerCallId callId).activeCalls = r.activeCalls := rfl

@[simp] theorem mapTo_providerCallIdMap : (r.mapTo providerCallId callId).providerCallIdMap providerCallId' =
    if providerCallId' = providerCallId then some callId else r.providerCallIdMap providerCallId' :=
  Function.update_apply ..

@[simp] theorem unmap_calls : (r.unmap providerCallId callId).calls = r.calls := by
  unfold unmap
  split <;> rfl

@[simp] theorem unmap_activeCalls : (r.unmap providerCallId callId).activeCalls = r.activeCalls := by
  unfold unmap
  split <;> rfl

theorem unmap_eq_some_iff : (r.unmap providerCallId callId).providerCallIdMap providerCallId' = some other ↔
    r.providerCallIdMap providerCallId' = some other ∧ ¬ (providerCallId' = providerCallId ∧ other = callId) := by
  unfold unmap
  split
  case isTrue hmap =>
    by_cases heq : providerCallId' = providerCallId
    · subst heq
      simp [hmap, eq_comm]
    · simp [heq]
  case isFalse hmap =>
    refine (and_iff_left_of_imp ?_).symm
    rintro hother ⟨rfl, rfl⟩
    exact hmap hother

@[simp] theorem removeProviderCallMapping_calls : (r.removeProviderCallMapping callId call).calls = r.calls := by
  unfold removeProviderCallMapping
  split <;> simp

@[simp] theorem removeProviderCallMapping_activeCalls :
    (r.removeProviderCallMapping callId call).activeCalls = r.activeCalls := by
  unfold removeProviderCallMapping
  split <;> simp

theorem removeProviderCallMapping_eq_some_iff :
    (r.removeProviderCallMapping callId call).providerCallIdMap providerCallId' = some other ↔
      r.providerCallIdMap providerCallId' = some other ∧
        ¬ (call.connectedId? = some providerCallId' ∧ other = callId) := by
  unfold removeProviderCallMapping
  split
  case h_1 hnone => simp [hnone]
  case h_2 providerCallId hsome => rw [unmap_eq_some_iff, hsome, Option.some_inj, eq_comm (a := providerCallId)]

end Lookups

theorem activeCall?_eq_some_iff : r.activeCall? callId = some call ↔ callId ∈ r.activeCalls ∧ r.calls callId = some call := by
  simp [activeCall?]

theorem Sound.exists_call (h : r.Sound) (hmem : callId ∈ r.activeCalls) :
    ∃ call, r.calls callId = some call ∧ ¬ call.Finalised := (h.active callId).1 hmem

theorem Sound.connectedId?_eq_some_iff (h : r.Sound) (hcall : r.calls callId = some call) :
    call.connectedId? = some providerCallId ↔ call.providerCallId = some providerCallId := by
  rw [CallRecord.connectedId?, Option.filter_eq_some_iff]
  refine and_iff_left_of_imp fun hid => decide_eq_true fun hempty => ?_
  exact h.connected callId call hcall (hempty ▸ hid)

-- ---
-- A change keeps the invariant
-- ---

theorem Sound.isTerminal_iff (h : r.Sound) (hcall : r.calls callId = some call) :
    call.state.IsTerminal ↔ call.Finalised := by
  constructor
  · exact fun hterminal => not_not.1 fun hgoing => h.going callId call hcall hgoing hterminal
  · intro hfinal
    obtain ⟨reason, hstate, -⟩ := h.final callId call hcall hfinal
    exact ⟨reason, hstate⟩

theorem Sound.edited (h : r.Sound) (hcall : r.calls callId = some call) (hedit : call.Edited call') :
    (r.put callId call').Sound := by
  have hfinal : call'.Finalised ↔ call.Finalised := by rw [CallRecord.Finalised, hedit.endedAt, CallRecord.Finalised]
  constructor
  · exact h.nodup
  · intro other
    by_cases heq : other = callId
    · subst heq
      simpa [hcall, hfinal] using h.active other
    · simpa [heq] using h.active other
  · intro other old hold hgoing
    by_cases heq : other = callId
    · obtain rfl : call' = old := by simpa [heq] using hold
      exact hedit.going (h.going callId call hcall fun hold => hgoing (hfinal.2 hold))
    · exact h.going other old (by simpa [heq] using hold) hgoing
  · intro other old hold hended
    by_cases heq : other = callId
    · obtain rfl : call' = old := by simpa [heq] using hold
      obtain ⟨reason, hstate, hreason⟩ := h.final callId call hcall (hfinal.1 hended)
      have hterminal : call.state.IsTerminal := ⟨reason, hstate⟩
      refine ⟨reason, ?_, (hedit.endReason hterminal).trans hreason⟩
      rcases hedit.forward with hsame | ⟨hgoing, -⟩
      · exact hsame.symm.trans hstate
      · exact absurd hterminal hgoing
    · exact h.final other old (by simpa [heq] using hold) hended
  · intro other old hold
    by_cases heq : other = callId
    · obtain rfl : call' = old := by simpa [heq] using hold
      exact hedit.providerCallId ▸ h.connected callId call hcall
    · exact h.connected other old (by simpa [heq] using hold)
  · intro providerCallId other
    rw [put_providerCallIdMap, h.map]
    by_cases heq : other = callId
    · subst heq
      simp [hcall, hedit.providerCallId]
    · simp [heq]

/-- A new call that nothing leads to yet. -/
theorem Sound.add (h : r.Sound) (hnew : r.calls callId = none) (hgoing : ¬ call.Finalised)
    (hstate : ¬ call.state.IsTerminal) (hid : call.providerCallId = none) : (r.add callId call).Sound := by
  have hinactive : callId ∉ r.activeCalls := by
    intro hmem
    obtain ⟨old, hold, -⟩ := h.exists_call hmem
    cases hnew.symm.trans hold
  constructor
  · exact h.nodup.append (List.nodup_singleton callId) (by simpa using hinactive)
  · intro other
    by_cases heq : other = callId
    · simp [heq, hgoing]
    · simpa [heq] using h.active other
  · intro other old hold
    by_cases heq : other = callId
    · obtain rfl : call = old := by simpa [heq] using hold
      exact fun _ => hstate
    · exact h.going other old (by simpa [heq] using hold)
  · intro other old hold hended
    by_cases heq : other = callId
    · obtain rfl : call = old := by simpa [heq] using hold
      exact absurd hended hgoing
    · exact h.final other old (by simpa [heq] using hold) hended
  · intro other old hold
    by_cases heq : other = callId
    · obtain rfl : call = old := by simpa [heq] using hold
      simp [hid]
    · exact h.connected other old (by simpa [heq] using hold)
  · intro providerCallId other
    rw [add_providerCallIdMap, h.map]
    by_cases heq : other = callId
    · simp [heq, hinactive, hid]
    · simp [heq]

/-- An active call gets another provider call id, which leads to no other. -/
theorem Sound.identified (h : r.Sound) (hcall : r.activeCall? callId = some call)
    (hne : call.providerCallId ≠ some providerCallId) (hid : providerCallId ≠ [])
    (hfree : r.IsFree providerCallId callId) : (r.identified callId call providerCallId).Sound := by
  obtain ⟨hmem, hcall⟩ := activeCall?_eq_some_iff.1 hcall
  have hgoing : ¬ call.Finalised := by
    obtain ⟨old, hold, hgoing⟩ := h.exists_call hmem
    obtain rfl := Option.some.inj (hcall.symm.trans hold)
    exact hgoing
  unfold Registry.identified
  constructor
  · simpa using h.nodup
  · intro other
    by_cases heq : other = callId
    · simp [heq, hmem, CallRecord.Finalised, not_not.1 hgoing]
    · simpa [heq] using h.active other
  · intro other old hold
    by_cases heq : other = callId
    · obtain rfl : { call with providerCallId := some providerCallId } = old := by simpa [heq] using hold
      exact fun _ => h.going callId call hcall hgoing
    · exact h.going other old (by simpa [heq] using hold)
  · intro other old hold hended
    by_cases heq : other = callId
    · obtain rfl : { call with providerCallId := some providerCallId } = old := by simpa [heq] using hold
      exact absurd hended hgoing
    · exact h.final other old (by simpa [heq] using hold) hended
  · intro other old hold
    by_cases heq : other = callId
    · obtain rfl : { call with providerCallId := some providerCallId } = old := by simpa [heq] using hold
      simpa using hid
    · exact h.connected other old (by simpa [heq] using hold)
  · intro providerCallId' other
    rw [removeProviderCallMapping_eq_some_iff, mapTo_providerCallIdMap, h.connectedId?_eq_some_iff hcall]
    by_cases hid : providerCallId' = providerCallId
    · subst hid
      by_cases heq : other = callId
      · simp [heq, hne, hmem]
      · simp only [if_pos, Option.some.injEq, heq, Ne.symm heq, false_and, false_iff, not_and]
        simp [heq]
        rintro hother old hold hid
        exact heq (hfree other ((h.map _ _).2 ⟨hother, old, hold, hid⟩))
    · by_cases heq : other = callId
      · subst heq
        simp [hid, h.map, hmem, hcall, Ne.symm hid]
      · simp [hid, h.map, heq]

theorem Sound.finalizeCall (h : r.Sound) (hmem : callId ∈ r.activeCalls) (endReason : EndReason) (endedAt : Nat) :
    (r.finalizeCall callId endReason endedAt).Sound := by
  obtain ⟨call, hcall, hgoing⟩ := h.exists_call hmem
  have hstate := h.going callId call hcall hgoing
  unfold Registry.finalizeCall
  simp only [hcall]
  rw [transitionState_ended (by exact hstate)]
  constructor
  · simpa using h.nodup.erase callId
  · intro other
    by_cases heq : other = callId
    · subst heq
      simp [CallRecord.Finalised, h.nodup.mem_erase_iff]
    · simpa [heq, h.nodup.mem_erase_iff] using h.active other
  · intro other old hold
    by_cases heq : other = callId
    · obtain rfl : _ = old := by simpa [heq] using hold
      exact fun hactive => absurd (by simp [CallRecord.Finalised]) hactive
    · exact h.going other old (by simpa [heq] using hold)
  · intro other old hold hended
    by_cases heq : other = callId
    · obtain rfl : _ = old := by simpa [heq] using hold
      exact ⟨endReason, rfl, rfl⟩
    · exact h.final other old (by simpa [heq] using hold) hended
  · intro other old hold
    by_cases heq : other = callId
    · obtain rfl : _ = old := by simpa [heq] using hold
      exact h.connected callId call hcall
    · exact h.connected other old (by simpa [heq] using hold)
  · intro providerCallId other
    rw [removeProviderCallMapping_eq_some_iff, h.connectedId?_eq_some_iff hcall]
    by_cases heq : other = callId
    · subst heq
      simp [h.map, h.nodup.mem_erase_iff, hcall]
    · simp [h.map, h.nodup.mem_erase_iff, heq]

theorem Write.sound (h : r.Sound) (hwrite : r.Write r') : r'.Sound := by
  cases hwrite with
  | edited hcall hedit => exact h.edited hcall hedit
  | identified hcall hne hid hfree => exact h.identified hcall hne hid hfree
  | finalized hmem => exact h.finalizeCall hmem _ _

theorem Change.sound (h : r.Sound) (hchange : r.Change r') : r'.Sound := by
  cases hchange with
  | write hwrite => exact hwrite.sound h
  | added hnew hgoing hstate hid => exact h.add hnew hgoing hstate hid

-- ---
-- A change moves forward
-- ---

theorem Sound.edited_later (h : r.Sound) (hcall : r.calls callId = some call) (hedit : call.Edited call') :
    call.Later call' where
  forward := hedit.forward
  final hfinal := by
    have hterminal := (h.isTerminal_iff hcall).2 hfinal
    refine ⟨?_, hedit.endReason hterminal, hedit.endedAt⟩
    rcases hedit.forward with hsame | ⟨hgoing, -⟩
    · exact hsame.symm
    · exact absurd hterminal hgoing

/-- A write is to one call, which it moves on. -/
theorem Write.spec (h : r.Sound) (hwrite : r.Write r') :
    ∃ callId call call', r.calls callId = some call ∧ call.Later call' ∧
      ∀ other, r'.calls other = if other = callId then some call' else r.calls other := by
  cases hwrite with
  | edited hcall hedit => exact ⟨_, _, _, hcall, h.edited_later hcall hedit, fun other => put_calls ..⟩
  | @identified _ callId call providerCallId hcall =>
    refine ⟨callId, call, { call with providerCallId := some providerCallId }, (activeCall?_eq_some_iff.1 hcall).2,
      ⟨.refl _, fun _ => ⟨rfl, rfl, rfl⟩⟩, fun other => ?_⟩
    simp [Registry.identified]
  | @finalized reason endedAt _ callId hmem =>
    obtain ⟨call, hcall, hgoing⟩ := h.exists_call hmem
    refine ⟨callId, call, _, hcall,
      ⟨transitionState_forward { call with endedAt := some endedAt, endReason := some reason } (.ended reason),
        fun hfinal => absurd hfinal hgoing⟩, fun other => ?_⟩
    simp [Registry.finalizeCall, hcall]

theorem Write.later (h : r.Sound) (hwrite : r.Write r') : r.Later r' := by
  obtain ⟨callId, call, call', hcall, hlater, hcalls⟩ := hwrite.spec h
  intro other old hold
  rw [hcalls]
  by_cases heq : other = callId
  · obtain rfl : call = old := Option.some.inj (hcall.symm.trans (heq ▸ hold))
    exact ⟨call', if_pos heq, hlater⟩
  · exact ⟨old, by rw [if_neg heq, hold], .refl old⟩

theorem Write.calls_eq_none (h : r.Sound) (hwrite : r.Write r') (hnone : r.calls callId = none) :
    r'.calls callId = none := by
  obtain ⟨other, call, call', hcall, -, hcalls⟩ := hwrite.spec h
  rw [hcalls, if_neg, hnone]
  rintro rfl
  cases hnone.symm.trans hcall

theorem Change.later (h : r.Sound) (hchange : r.Change r') : r.Later r' := by
  cases hchange with
  | write hwrite => exact hwrite.later h
  | added hnew =>
    intro other old hold
    have hne : other ≠ _ := fun heq => by cases hnew.symm.trans (heq ▸ hold)
    exact ⟨old, by simpa [hne] using hold, .refl old⟩

/-- One write after another. -/
abbrev Writes : Registry → Registry → Prop := Relation.ReflTransGen Write

/-- One change after another. -/
abbrev Changes : Registry → Registry → Prop := Relation.ReflTransGen Change

theorem Writes.changes (hwrites : r.Writes r') : r.Changes r' := hwrites.lift id fun _ _ => .write

theorem Changes.sound_later (h : r.Sound) (hchanges : r.Changes r') : r'.Sound ∧ r.Later r' := by
  induction hchanges with
  | refl => exact ⟨h, .refl r⟩
  | tail _ hchange ih => exact ⟨hchange.sound ih.1, ih.2.trans (hchange.later ih.1)⟩

theorem Writes.calls_eq_none (h : r.Sound) (hwrites : r.Writes r') (hnone : r.calls callId = none) :
    r'.calls callId = none := by
  induction hwrites with
  | refl => exact hnone
  | tail hwrites hwrite ih => exact hwrite.calls_eq_none (Changes.sound_later h (Writes.changes hwrites)).1 ih

end Registry

end OpenClaw.VoiceCall
