import OpenClaw.Lib.OrderedSet
import OpenClaw.Lib.Transition
import OpenClaw.VoiceCall.Registry

/-!
# The call manager

Provider events and requests move the voice calls of the process from state to state. The
requests wait for the provider in between, and hold the record of their call meanwhile,
whatever events come in.
-/

namespace OpenClaw.VoiceCall

open Js Transition

-- ---
-- The manager
-- ---

inductive InboundPolicy where
  | disabled
  | allowlist
  | pairing
  | opened
  deriving DecidableEq

/-- `deferUntilStreamConnect` is the answer of
`shouldDeferConversationInitialMessageUntilStreamConnect`. -/
structure VoiceCallConfig where
  provider : Option ProviderName
  webhookUrl : Option Text
  fromNumber : Text
  maxConcurrentCalls : Nat
  inboundPolicy : InboundPolicy
  allowFrom : List Text
  inboundGreeting : Text
  defaultMode : CallMode
  deferUntilStreamConnect : Bool

/-- Who waits for `speak`. -/
inductive SpeakCaller where
  | request
  | initialMessage (mode : CallMode)
  | turn (turnToken : Option Text)
  deriving DecidableEq

/-- What waits for a provider, a promise or a timer, at the `await` it is named after. -/
inductive Task where
  | initiateCall (callId : CallId)
  | playTts (callId : CallId) (text : Text) (caller : SpeakCaller)
  | spoken (callId : CallId) (success : Bool) (caller : SpeakCaller)
  | startListening (callId : CallId) (turnToken : Option Text)
  | transcript (callId : CallId)
  | transcribed (callId : CallId) (transcript : Option Text)
  | stopListening (callId : CallId)
  | hangupCall (callId : CallId) (reason : EndReason)
  | notifyHangup (callId : CallId)
  deriving DecidableEq

structure TranscriptWaiter where
  turnToken : Option Text

structure Manager where
  registry : Registry
  processedEventIds : List Text
  rejectedProviderCallIds : List ProviderCallId
  activeTurnCalls : List CallId
  transcriptWaiters : CallId → Option TranscriptWaiter
  maxDurationTimers : List CallId
  initialMessageInFlight : List CallId
  tasks : List Task

namespace Manager

def empty : Manager where
  registry := ⟨fun _ => none, [], fun _ => none⟩
  processedEventIds := []
  rejectedProviderCallIds := []
  activeTurnCalls := []
  transcriptWaiters := fun _ => none
  maxDurationTimers := []
  initialMessageInFlight := []
  tasks := []

def edit (m : Manager) (callId : CallId) (write : CallRecord → CallRecord) : Manager :=
  { m with registry := m.registry.edit callId write }

def await (m : Manager) (task : Task) : Manager := { m with tasks := m.tasks ++ [task] }

-- ---
-- Waiters and timers
-- ---

def clearTranscriptWaiter (m : Manager) (callId : CallId) : Manager :=
  { m with transcriptWaiters := Function.update m.transcriptWaiters callId none }

/-- The promise of the waiter is resolved, or rejected where there is no transcript. -/
def settleTranscript (m : Manager) (callId : CallId) (transcript : Option Text) : Manager :=
  { m.clearTranscriptWaiter callId with
    tasks := m.tasks.map fun task => if task = .transcript callId then .transcribed callId transcript else task }

def rejectTranscriptWaiter (m : Manager) (callId : CallId) : Manager :=
  if (m.transcriptWaiters callId).isSome then m.settleTranscript callId none else m

/-- The waiter takes the transcript, unless it waits for one with another token. -/
def accepts (waiter : TranscriptWaiter) (turnToken : Option Text) : Bool :=
  (waiter.turnToken.filter (· ≠ [])).all fun token => turnToken = some token

def waitForFinalTranscript (m : Manager) (callId : CallId) (turnToken : Option Text) : Manager :=
  if (m.transcriptWaiters callId).isSome then m.await (.transcribed callId none)
  else { m.await (.transcript callId) with
    transcriptWaiters := Function.update m.transcriptWaiters callId (some ⟨turnToken⟩) }

def startMaxDurationTimer (m : Manager) (callId : CallId) : Manager :=
  { m with maxDurationTimers := OrderedSet.add m.maxDurationTimers callId }

def clearMaxDurationTimer (m : Manager) (callId : CallId) : Manager :=
  { m with maxDurationTimers := m.maxDurationTimers.erase callId }

def finalizeCall (m : Manager) (callId : CallId) (endReason : EndReason) (endedAt : Nat) : Manager :=
  let m := (m.clearMaxDurationTimer callId).rejectTranscriptWaiter callId
  { m with registry := m.registry.finalizeCall callId endReason endedAt }

-- ---
-- Requests
-- ---

variable (config : VoiceCallConfig)

inductive ConnectedCallLookup where
  | error
  | ended
  | ok

def lookupConnectedCall (m : Manager) (callId : CallId) : ConnectedCallLookup :=
  match m.registry.activeCall? callId with
  | none => .error
  | some call =>
    if config.provider.isNone ∨ call.connectedId?.isNone then .error
    else if call.state.IsTerminal then .ended
    else .ok

/-- Up to the answer of the provider. `uuid` is the new id of the call. -/
def initiateCall (m : Manager) (uuid : CallId) (message : Option Text) (mode : Option CallMode) : Manager :=
  if config.provider.isNone ∨ (config.webhookUrl.filter (· ≠ [])).isNone then m
  else if config.maxConcurrentCalls ≤ m.registry.activeCalls.length then m
  else if config.fromNumber = [] ∧ config.provider ≠ some .mock then m
  else
    let call : CallRecord := {
      providerCallId := none
      direction := .outbound
      state := .initiated
      answeredAt := none
      endedAt := none
      endReason := none
      transcript := []
      metadata := ⟨message.filter (· ≠ []), some (mode.getD config.defaultMode), none⟩ }
    { m with registry := m.registry.add uuid call }.await (.initiateCall uuid)

/-- Up to the end of the playback, or to the return to the caller. -/
def speak (m : Manager) (callId : CallId) (text : Text) (caller : SpeakCaller) : Manager :=
  match m.lookupConnectedCall config callId with
  | .ok => (m.edit callId fun call => transitionState call .speaking).await (.playTts callId text caller)
  | _ => if caller = .request then m else m.await (.spoken callId false caller)

def speakInitialMessage (m : Manager) (providerCallId : ProviderCallId) : Manager :=
  match m.registry.getCallByProviderCallId providerCallId with
  | none => m
  | some callId =>
    match m.registry.calls callId with
    | none => m
    | some call =>
      match call.metadata.initialMessage.filter (· ≠ []) with
      | none => m
      | some initialMessage =>
        if callId ∈ m.initialMessageInFlight then m
        else
          { m with initialMessageInFlight := m.initialMessageInFlight ++ [callId] }.speak config callId initialMessage
            (.initialMessage (call.metadata.mode.getD .conversation))

/-- `uuid` is the token of the turn, which only Twilio gets. -/
def continueCall (m : Manager) (callId : CallId) (prompt uuid : Text) : Manager :=
  match m.lookupConnectedCall config callId with
  | .ok =>
    if callId ∈ m.activeTurnCalls ∨ (m.transcriptWaiters callId).isSome then m
    else
      let turnToken := if config.provider = some .twilio then some uuid else none
      { m with activeTurnCalls := m.activeTurnCalls ++ [callId] }.speak config callId prompt (.turn turnToken)
  | _ => m

def endCall (m : Manager) (callId : CallId) (reason : Option EndReason) : Manager :=
  match m.lookupConnectedCall config callId with
  | .ok => m.await (.hangupCall callId (reason.getD .hangupBot))
  | _ => m

-- ---
-- Events
-- ---

inductive EventType where
  | initiated
  | ringing
  | answered
  | active
  | speaking
  | speech (transcript : Text) (isFinal : Bool)
  | silence
  | dtmf
  | ended (reason : EndReason)
  | error (retryable : Bool)

structure NormalizedEvent where
  id : Text
  dedupeKey : Option Text
  callId : Text
  providerCallId : Option ProviderCallId
  timestamp : Nat
  turnToken : Option Text
  direction : Option CallDirection
  sender : Option Text
  type : EventType

/-- The provider call id of the event, where it is not empty. -/
def NormalizedEvent.providerCallId? (event : NormalizedEvent) : Option ProviderCallId :=
  event.providerCallId.filter (· ≠ [])

/-- `event.dedupeKey || event.id` -/
def NormalizedEvent.key (event : NormalizedEvent) : Text := (event.dedupeKey.filter (· ≠ [])).getD event.id

def normalizePhoneNumber (input : Text) : Text := input.filter Char.isDigit

def isAllowlistedCaller (normalizedFrom : Text) (allowFrom : List Text) : Bool :=
  normalizedFrom ≠ [] && allowFrom.any fun num =>
    normalizePhoneNumber num ≠ [] && normalizePhoneNumber num = normalizedFrom

def shouldAcceptInbound (sender : Option Text) : Bool :=
  match config.inboundPolicy with
  | .disabled => false
  | .opened => true
  | .allowlist | .pairing =>
    let normalized := normalizePhoneNumber (sender.getD [])
    normalized ≠ [] && isAllowlistedCaller normalized config.allowFrom

def defaultGreeting : Text := "Hello! How can I help you today?".toList

/-- The record that `createWebhookCall` makes. -/
def webhookCall (providerCallId : ProviderCallId) (direction : CallDirection) : CallRecord where
  providerCallId := some providerCallId
  direction := direction
  state := .ringing
  answeredAt := none
  endedAt := none
  endReason := none
  transcript := []
  metadata := {
    initialMessage :=
      if direction = .inbound then some (if config.inboundGreeting = [] then defaultGreeting else config.inboundGreeting)
      else none
    mode := none
    turnCount := none }

def createWebhookCall (m : Manager) (uuid : CallId) (providerCallId : ProviderCallId) (direction : CallDirection) :
    Manager :=
  { m with registry := (m.registry.add uuid (webhookCall config providerCallId direction)).mapTo providerCallId uuid }

/-- The call of the event, with the manager that has it; a call nobody tracks is registered
when the event has a provider call id and a direction. -/
def findOrCreateCall (m : Manager) (event : NormalizedEvent) (uuid : CallId) : Manager × Option CallId :=
  match m.registry.findCall event.callId, event.providerCallId?, event.direction with
  | some callId, _, _ => (m, some callId)
  | none, some providerCallId, some direction =>
    if direction = .inbound ∧ shouldAcceptInbound config event.sender = false then
      if config.provider.isNone then (m, none)
      else ({ m with rejectedProviderCallIds := OrderedSet.add m.rejectedProviderCallIds providerCallId }, none)
    else (m.createWebhookCall config uuid providerCallId direction, some uuid)
  | none, _, _ => (m, none)

/-- Gives the call the provider call id of the event, where it is another one. -/
def identify (r : Registry) (callId : CallId) (providerCallId : ProviderCallId) : Registry :=
  match r.calls callId with
  | none => r
  | some call =>
    if call.providerCallId = some providerCallId then r
    else
      let r := (r.put callId { call with providerCallId := some providerCallId }).mapTo providerCallId callId
      r.removeProviderCallMapping callId call

def maybeSpeakInitialMessageOnAnswered (m : Manager) (callId : CallId) : Manager :=
  match m.registry.calls callId with
  | none => m
  | some call =>
    let mode := call.metadata.mode.getD .conversation
    if trimChars (call.metadata.initialMessage.getD []) = [] then m
    else if mode = .conversation ∧ config.deferUntilStreamConnect then m
    else
      match config.provider, call.connectedId? with
      | some _, some providerCallId => m.speakInitialMessage config providerCallId
      | _, _ => m

def speech (m : Manager) (callId : CallId) (transcript : Text) (isFinal : Bool) (turnToken : Option Text) : Manager :=
  if isFinal then
    match m.transcriptWaiters callId with
    | none => m.edit callId fun call => transitionState (addTranscriptEntry call .user transcript) .listening
    | some waiter =>
      if accepts waiter turnToken then
        (m.settleTranscript callId (some transcript)).edit callId fun call =>
          transitionState (addTranscriptEntry call .user transcript) .listening
      else m
  else m.edit callId fun call => transitionState call .listening

/-- What the event does to its call. -/
def applyEvent (m : Manager) (callId : CallId) (event : NormalizedEvent) : Manager :=
  match event.type with
  | .initiated => m.edit callId fun call => transitionState call .initiated
  | .ringing => m.edit callId fun call => transitionState call .ringing
  | .answered =>
    let m := m.edit callId fun call => transitionState { call with answeredAt := some event.timestamp } .answered
    (m.startMaxDurationTimer callId).maybeSpeakInitialMessageOnAnswered config callId
  | .active => m.edit callId fun call => transitionState call .active
  | .speaking => m.edit callId fun call => transitionState call .speaking
  | .speech transcript isFinal => m.speech callId transcript isFinal event.turnToken
  | .silence => m
  | .dtmf => m
  | .ended reason => m.finalizeCall callId reason event.timestamp
  | .error retryable => if retryable then m else m.finalizeCall callId .error event.timestamp

def processEvent (m : Manager) (event : NormalizedEvent) (uuid : CallId) : Manager :=
  if event.key ∈ m.processedEventIds then m
  else
    let m := { m with processedEventIds := m.processedEventIds ++ [event.key] }
    match m.findOrCreateCall config event uuid with
    | (m, none) => m
    | (m, some callId) =>
      let registry :=
        match event.providerCallId? with
        | none => m.registry
        | some providerCallId => identify m.registry callId providerCallId
      { m with registry := registry }.applyEvent config callId event

-- ---
-- Behind an `await`
-- ---

/-- The `finally` of `continueCall`. -/
def finishTurn (m : Manager) (callId : CallId) : Manager :=
  { m with activeTurnCalls := m.activeTurnCalls.erase callId }.clearTranscriptWaiter callId

def spoken (m : Manager) (callId : CallId) (success : Bool) : SpeakCaller → Manager
  | .request => m
  | .initialMessage mode =>
    let m := { m with initialMessageInFlight := m.initialMessageInFlight.erase callId }
    if success then
      let m := m.edit callId fun call => { call with metadata := { call.metadata with initialMessage := none } }
      if mode = .notify then m.await (.notifyHangup callId) else m
    else m
  | .turn turnToken =>
    (m.edit callId fun call => transitionState call .listening).await (.startListening callId turnToken)

/-- What goes on with `result` at the time `now`, or with an error. The result of
`initiateCall` is the provider call id, and that of others does not matter. -/
def resume (m : Manager) (result : Option Text) (now : Nat) : Task → Option Manager
  | .initiateCall callId =>
    match result with
    | some providerCallId =>
      let registry := m.registry.edit callId fun call => { call with providerCallId := some providerCallId }
      some { m with registry := registry.mapTo providerCallId callId }
    | none => some (m.finalizeCall callId .failed now)
  | .playTts callId text caller =>
    let m :=
      if result.isSome then m.edit callId fun call => addTranscriptEntry call .bot text
      else m.edit callId fun call => transitionState call .listening
    some (if caller = .request then m else m.await (.spoken callId result.isSome caller))
  | .spoken callId success caller => some (m.spoken callId success caller)
  | .startListening callId turnToken =>
    some (if result.isSome then m.waitForFinalTranscript callId turnToken else m.finishTurn callId)
  | .transcript _ => none
  | .transcribed callId transcript =>
    some (if transcript.isSome then m.await (.stopListening callId) else m.finishTurn callId)
  | .stopListening callId =>
    let count (call : CallRecord) : CallRecord :=
      { call with metadata := { call.metadata with turnCount := some (call.metadata.turnCount.getD 0 + 1) } }
    some ((if result.isSome then m.edit callId count else m).finishTurn callId)
  | .hangupCall callId reason => some (if result.isSome then m.finalizeCall callId reason now else m)
  | .notifyHangup callId => some (m.endCall config callId none)

def maxDurationReached (m : Manager) (callId : CallId) : Manager :=
  let m := m.clearMaxDurationTimer callId
  match m.registry.activeCall? callId with
  | none => m
  | some call =>
    if call.state.IsTerminal then m
    else (m.edit callId fun call => { call with endReason := some .timeout }).endCall config callId (some .timeout)

end Manager

-- ---
-- Steps
-- ---

open Manager

/-- What happens between two `await`s. A `uuid` is new. -/
inductive Action where
  | event (event : NormalizedEvent) (uuid : CallId)
  | initiateCall (uuid : CallId) (message : Option Text) (mode : Option CallMode)
  | speak (callId : CallId) (text : Text)
  | speakInitialMessage (providerCallId : ProviderCallId)
  | continueCall (callId : CallId) (prompt uuid : Text)
  | endCall (callId : CallId)
  | settle (task : Task) (result : Option Text) (now : Nat)
  | maxDuration (callId : CallId)
  | transcriptTimeout (callId : CallId)

/-- `crypto.randomUUID()` -/
def Registry.IsNew (r : Registry) (uuid : CallId) : Prop := uuid ≠ [] ∧ r.calls uuid = none

instance (r : Registry) (uuid : CallId) : Decidable (r.IsNew uuid) := inferInstanceAs (Decidable (_ ∧ _))

def step (config : VoiceCallConfig) (m : Manager) : Action → Option Manager
  | .event event uuid => if m.registry.IsNew uuid then some (m.processEvent config event uuid) else none
  | .initiateCall uuid message mode =>
    if m.registry.IsNew uuid then some (m.initiateCall config uuid message mode) else none
  | .speak callId text => some (m.speak config callId text .request)
  | .speakInitialMessage providerCallId => some (m.speakInitialMessage config providerCallId)
  | .continueCall callId prompt uuid => some (m.continueCall config callId prompt uuid)
  | .endCall callId => some (m.endCall config callId none)
  | .settle task result now =>
    if task ∈ m.tasks then { m with tasks := m.tasks.erase task }.resume config result now task else none
  | .maxDuration callId => if callId ∈ m.maxDurationTimers then some (m.maxDurationReached config callId) else none
  | .transcriptTimeout callId =>
    if (m.transcriptWaiters callId).isSome then some (m.settleTranscript callId none) else none

def system (config : VoiceCallConfig) : System Manager Action where
  init m := m = .empty
  step := step config

end OpenClaw.VoiceCall
