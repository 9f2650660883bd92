import OpenClaw.VoiceCall.CallManager
import OpenClaw.VoiceCall.Registry

/-!
# Calls go forward

What the manager does between two awaits is a series of changes of its registry, as long as
the ends that requests wait for find their call active and no provider call id comes to
belong to two calls.
-/

namespace OpenClaw.VoiceCall

open Js Transition Manager

variable {config : VoiceCallConfig} {m m' : Manager} {callId : CallId} {event : NormalizedEvent}

-- ---
-- What leaves the registry alone
-- ---

namespace Manager

section Frame

variable (m) (callId)

@[simp] theorem await_registry (task : Task) : (m.await task).registry = m.registry := rfl

@[simp] theorem edit_registry (write : CallRecord → CallRecord) :
    (m.edit callId write).registry = m.registry.edit callId write := rfl

@[simp] theorem clearTranscriptWaiter_registry : (m.clearTranscriptWaiter callId).registry = m.registry := rfl

@[simp] theorem settleTranscript_registry (transcript : Option Text) :
    (m.settleTranscript callId transcript).registry = m.registry := rfl

@[simp] theorem rejectTranscriptWaiter_registry : (m.rejectTranscriptWaiter callId).registry = m.registry := by
  unfold rejectTranscriptWaiter
  split <;> rfl

@[simp] theorem waitForFinalTranscript_registry (turnToken : Option Text) :
    (m.waitForFinalTranscript callId turnToken).registry = m.registry := by
  unfold waitForFinalTranscript
  split <;> rfl

@[simp] theorem startMaxDurationTimer_registry : (m.startMaxDurationTimer callId).registry = m.registry := rfl

@[simp] theorem clearMaxDurationTimer_registry : (m.clearMaxDurationTimer callId).registry = m.registry := rfl

@[simp] theorem finishTurn_registry : (m.finishTurn callId).registry = m.registry := rfl

@[simp] theorem finalizeCall_registry (endReason : EndReason) (endedAt : Nat) :
    (m.finalizeCall callId endReason endedAt).registry = m.registry.finalizeCall callId endReason endedAt := by
  simp [finalizeCall]

@[simp] theorem endCall_registry (reason : Option EndReason) : (m.endCall config callId reason).registry = m.registry := by
  unfold endCall
  split <;> rfl

end Frame

-- ---
-- Requests
-- ---

theorem edit_writes {r : Registry} {write : CallRecord → CallRecord}
    (hwrite : ∀ call, r.calls callId = some call → call.Edited (write call)) : r.Writes (r.edit callId write) := by
  unfold Registry.edit
  split
  · exact .refl
  case h_2 call hcall => exact .single (.edited hcall (hwrite call hcall))

theorem transition_writes (r : Registry) (callId : CallId) {newState : CallState} (hnew : ¬ newState.IsTerminal) :
    r.Writes (r.edit callId fun call => transitionState call newState) :=
  edit_writes fun call _ => (CallRecord.Edited.refl call).transitionState hnew

theorem addTranscriptEntry_edited (call : CallRecord) (speaker : Speaker) (text : Text) :
    call.Edited (addTranscriptEntry call speaker text) := ⟨rfl, rfl, .refl _, id, fun _ => rfl⟩

theorem speak_writes (hr : m.registry = r) (callId : CallId) (text : Text) (caller : SpeakCaller) :
    r.Writes (m.speak config callId text caller).registry := by
  subst hr
  unfold speak
  split
  · exact transition_writes _ _ (by decide)
  · split <;> exact .refl

theorem speakInitialMessage_writes (hr : m.registry = r) (providerCallId : ProviderCallId) :
    r.Writes (m.speakInitialMessage config providerCallId).registry := by
  subst hr
  unfold speakInitialMessage
  split
  · exact .refl
  · split
    · exact .refl
    · split
      · exact .refl
      · split
        · exact .refl
        · exact speak_writes (by rfl) _ _ _

theorem continueCall_writes (m : Manager) (callId : CallId) (prompt uuid : Text) :
    m.registry.Writes (m.continueCall config callId prompt uuid).registry := by
  unfold continueCall
  split
  · split
    · exact .refl
    · exact speak_writes (by rfl) _ _ _
  · exact .refl

/-- A new call, on its own. -/
theorem initiateCall_changes (hnew : m.registry.calls uuid = none) (message : Option Text) (mode : Option CallMode) :
    m.registry.Changes (m.initiateCall config uuid message mode).registry := by
  unfold initiateCall
  split_ifs
  · exact .refl
  · exact .refl
  · exact .refl
  · exact .single (.added hnew (by simp [CallRecord.Finalised]) nofun rfl)

-- ---
-- Events
-- ---

theorem maybeSpeakInitialMessageOnAnswered_writes (hr : m.registry = r) (callId : CallId) :
    r.Writes (m.maybeSpeakInitialMessageOnAnswered config callId).registry := by
  subst hr
  unfold maybeSpeakInitialMessageOnAnswered
  split
  · exact .refl
  · dsimp only
    split_ifs
    · exact .refl
    · exact .refl
    · split
      · exact speakInitialMessage_writes (by rfl) _
      · exact .refl

theorem speech_writes (m : Manager) (callId : CallId) (transcript : Text) (isFinal : Bool) (turnToken : Option Text) :
    m.registry.Writes (m.speech callId transcript isFinal turnToken).registry := by
  have hfinal : ∀ call : CallRecord, call.Edited (transitionState (addTranscriptEntry call .user transcript) .listening) :=
    fun call => (addTranscriptEntry_edited call .user transcript).transitionState (by decide)
  unfold speech
  split_ifs
  · split
    · exact edit_writes fun call _ => hfinal call
    · split_ifs
      · exact edit_writes fun call _ => hfinal call
      · exact .refl
  · exact transition_writes _ _ (by decide)

theorem applyEvent_writes (hr : m.registry = r) (hactive : callId ∈ r.activeCalls) (event : NormalizedEvent) :
    r.Writes (m.applyEvent config callId event).registry := by
  subst hr
  unfold applyEvent
  split
  case h_3 =>
    have hstamped : ∀ call : CallRecord, call.Edited { call with answeredAt := some event.timestamp } :=
      fun call => ⟨rfl, rfl, .refl _, id, fun _ => rfl⟩
    have hanswered : ∀ call : CallRecord,
        call.Edited (transitionState { call with answeredAt := some event.timestamp } .answered) :=
      fun call => (hstamped call).transitionState (by decide)
    exact (edit_writes fun call _ => hanswered call).trans (maybeSpeakInitialMessageOnAnswered_writes (by rfl) callId)
  case h_6 => exact speech_writes _ _ _ _ _
  case h_9 =>
    rw [finalizeCall_registry]
    exact .single (.finalized hactive)
  case h_10 =>
    split_ifs
    · exact .refl
    · rw [finalizeCall_registry]
      exact .single (.finalized hactive)
  all_goals first
    | exact transition_writes _ _ (by decide)
    | exact .refl

theorem findCall_mem {r : Registry} {id : Text} (h : r.findCall id = some callId) : callId ∈ r.activeCalls := by
  unfold Registry.findCall at h
  split at h
  case isTrue hmem => exact Option.some.inj h ▸ hmem
  case isFalse =>
    unfold Registry.getCallByProviderCallId at h
    split at h
    · split at h
      case isTrue hmem => exact Option.some.inj h ▸ hmem
      case isFalse => cases h
    · exact List.mem_of_find?_eq_some h

theorem identify_eq {r : Registry} {call : CallRecord} {providerCallId : ProviderCallId} (hcall : r.calls callId = some call)
    (hne : call.providerCallId ≠ some providerCallId) :
    identify r callId providerCallId = r.identified callId call providerCallId := by
  simp [identify, hcall, hne, Registry.identified]

theorem identify_writes {r : Registry} {providerCallId : ProviderCallId} (hactive : callId ∈ r.activeCalls)
    (hid : providerCallId ≠ []) (hfree : r.IsFree providerCallId callId) :
    r.Writes (identify r callId providerCallId) := by
  cases hcall : r.calls callId with
  | none =>
    simp only [identify, hcall]
    exact .refl
  | some call =>
    by_cases hsame : call.providerCallId = some providerCallId
    · simp only [identify, hcall, hsame, if_pos]
      exact .refl
    · rw [identify_eq hcall hsame]
      exact .single (.identified (Registry.activeCall?_eq_some_iff.2 ⟨hactive, hcall⟩) hsame hid hfree)

@[simp] theorem identify_activeCalls (r : Registry) (callId : CallId) (providerCallId : ProviderCallId) :
    (identify r callId providerCallId).activeCalls = r.activeCalls := by
  unfold identify
  split
  · rfl
  · split <;> simp

end Manager

-- ---
-- What goes well
-- ---

/-- A finalised call has the provider call id. -/
def Registry.HasEnded (r : Registry) (providerCallId : ProviderCallId) : Prop :=
  ∃ callId call, r.calls callId = some call ∧ call.Finalised ∧ call.providerCallId = some providerCallId

/-- The provider call id of the event does not lead to another call than the event's, and
where the event is to register a call, it is no call's. -/
def CleanEvent (config : VoiceCallConfig) (r : Registry) (event : NormalizedEvent) : Prop :=
  ∀ providerCallId, event.providerCallId? = some providerCallId →
    match r.findCall event.callId with
    | some callId => r.IsFree providerCallId callId
    | none => ∀ direction, event.direction = some direction →
        (direction = .inbound → shouldAcceptInbound config event.sender) →
        r.providerCallIdMap providerCallId = none ∧ ¬ r.HasEnded providerCallId

/-- An answer of the provider that ends or identifies a call finds it active, and the
provider call id of a new call is neither another call's nor comes after another one. -/
def Clean (config : VoiceCallConfig) (m : Manager) : Action → Prop
  | .event event _ => event.key ∉ m.processedEventIds → CleanEvent config m.registry event
  | .settle (.initiateCall callId) (some providerCallId) _ =>
    callId ∈ m.registry.activeCalls ∧ providerCallId ≠ [] ∧ m.registry.IsFree providerCallId callId ∧
      ∀ call, m.registry.calls callId = some call → ∀ id, call.providerCallId = some id → id = providerCallId
  | .settle (.initiateCall callId) none _ => callId ∈ m.registry.activeCalls
  | .settle (.hangupCall callId _) (some _) _ => callId ∈ m.registry.activeCalls
  | _ => True

namespace Manager

/-- The call a webhook registers is a new call that then gets its provider call id. -/
theorem createWebhookCall_changes {providerCallId : ProviderCallId} (hnew : m.registry.calls uuid = none)
    (hid : providerCallId ≠ []) (hfree : m.registry.providerCallIdMap providerCallId = none) (direction : CallDirection) :
    m.registry.Changes (m.createWebhookCall config uuid providerCallId direction).registry := by
  have hcall : (m.createWebhookCall config uuid providerCallId direction).registry =
      (m.registry.add uuid { webhookCall config providerCallId direction with providerCallId := none }).identified uuid
        { webhookCall config providerCallId direction with providerCallId := none } providerCallId := by
    simp only [createWebhookCall, Registry.identified, Registry.removeProviderCallMapping, CallRecord.connectedId?,
      Option.filter_none, Registry.add, Registry.put, Function.update_idem]
    rfl
  rw [hcall]
  refine .tail (.single (.added hnew ?_ ?_ rfl)) (.write (.identified ?_ (Option.some_ne_none _).symm hid ?_))
  · exact fun hfinal => hfinal rfl
  · exact fun hterminal => (of_decide_eq_false rfl) hterminal
  · simp [Registry.activeCall?]
  · intro other hother
    cases hfree.symm.trans hother

/-- The call of an event is active, and its provider call id leads to no other. -/
theorem findOrCreateCall_spec (hclean : CleanEvent config m.registry event) (hnew : m.registry.calls uuid = none) :
    m.registry.Changes (m.findOrCreateCall config event uuid).1.registry ∧
      ∀ callId, (m.findOrCreateCall config event uuid).2 = some callId →
        callId ∈ (m.findOrCreateCall config event uuid).1.registry.activeCalls ∧
        ∀ providerCallId, event.providerCallId? = some providerCallId →
          (m.findOrCreateCall config event uuid).1.registry.IsFree providerCallId callId := by
  unfold findOrCreateCall
  split
  case h_1 _ _ callId hfound =>
    refine ⟨.refl, ?_⟩
    rintro found hother
    obtain rfl : callId = found := Option.some.inj hother
    refine ⟨findCall_mem hfound, fun providerCallId hid => ?_⟩
    simpa [hfound] using hclean providerCallId hid
  case h_2 providerCallId direction hfound hid hdirection =>
    split
    · split <;> exact ⟨.refl, nofun⟩
    case isFalse haccept =>
      have haccept : direction = .inbound → shouldAcceptInbound config event.sender := by
        intro hinbound
        simpa [hinbound] using haccept
      have hfree := hclean providerCallId hid
      simp only [hfound] at hfree
      obtain ⟨hfree, -⟩ := hfree direction hdirection haccept
      have hempty : providerCallId ≠ [] := by simpa using (Option.filter_eq_some_iff.1 hid).2
      refine ⟨createWebhookCall_changes hnew hempty hfree direction, ?_⟩
      rintro found hother
      obtain rfl : uuid = found := Option.some.inj hother
      refine ⟨by simp [createWebhookCall], fun other hother => ?_⟩
      obtain rfl : providerCallId = other := Option.some.inj (hid.symm.trans hother)
      intro owner howner
      simpa [createWebhookCall, eq_comm] using howner
  case h_3 => exact ⟨.refl, nofun⟩

/-- What an event does to the call it is found for. -/
theorem applied_writes (hactive : callId ∈ m.registry.activeCalls)
    (hfree : ∀ providerCallId, event.providerCallId? = some providerCallId → m.registry.IsFree providerCallId callId) :
    m.registry.Writes ({ m with registry :=
      match event.providerCallId? with
      | none => m.registry
      | some providerCallId => identify m.registry callId providerCallId }.applyEvent config callId event).registry := by
  cases hid : event.providerCallId? with
  | none => exact applyEvent_writes (by rfl) hactive event
  | some providerCallId =>
    have hempty : providerCallId ≠ [] := by simpa using (Option.filter_eq_some_iff.1 hid).2
    refine .trans (identify_writes hactive hempty (hfree providerCallId hid)) ?_
    exact applyEvent_writes (by rfl) (by simpa using hactive) event

theorem processEvent_changes (hclean : event.key ∉ m.processedEventIds → CleanEvent config m.registry event)
    (hnew : m.registry.calls uuid = none) : m.registry.Changes (m.processEvent config event uuid).registry := by
  unfold processEvent
  split
  · exact .refl
  case isFalse hkey =>
    obtain ⟨hchanges, hspec⟩ :=
      findOrCreateCall_spec (m := { m with processedEventIds := m.processedEventIds ++ [event.key] }) (hclean hkey) hnew
    dsimp only at hchanges hspec ⊢
    split
    case h_1 hfound =>
      rw [hfound] at hchanges
      exact hchanges
    case h_2 hfound =>
      rw [hfound] at hchanges hspec
      obtain ⟨hactive, hfree⟩ := hspec _ rfl
      exact hchanges.trans (applied_writes hactive hfree).changes

-- ---
-- Behind an await
-- ---

theorem spoken_writes (m : Manager) (callId : CallId) (success : Bool) (caller : SpeakCaller) :
    m.registry.Writes (m.spoken callId success caller).registry := by
  unfold spoken
  split
  · exact .refl
  · dsimp only
    split_ifs
    · exact edit_writes fun call _ => ⟨rfl, rfl, .refl _, id, fun _ => rfl⟩
    · exact edit_writes fun call _ => ⟨rfl, rfl, .refl _, id, fun _ => rfl⟩
    · exact .refl
  · exact transition_writes _ _ (by decide)

/-- The provider call id the provider answered with. -/
theorem initiated_writes {r : Registry} {providerCallId : ProviderCallId} (h : r.Sound) (hactive : callId ∈ r.activeCalls)
    (hid : providerCallId ≠ []) (hfree : r.IsFree providerCallId callId)
    (hfirst : ∀ call, r.calls callId = some call → ∀ id, call.providerCallId = some id → id = providerCallId) :
    r.Writes ((r.edit callId fun call => { call with providerCallId := some providerCallId }).mapTo providerCallId callId) := by
  obtain ⟨call, hcall, -⟩ := h.exists_call hactive
  simp only [Registry.edit, hcall]
  cases hprevious : call.providerCallId with
  | none =>
    have hremove : (r.put callId { call with providerCallId := some providerCallId }).mapTo providerCallId callId =
        r.identified callId call providerCallId := by
      simp [Registry.identified, Registry.removeProviderCallMapping, CallRecord.connectedId?, hprevious]
    rw [hremove]
    exact .single (.identified (Registry.activeCall?_eq_some_iff.2 ⟨hactive, hcall⟩) (by simp [hprevious]) hid hfree)
  | some id =>
    -- The event that gave the call its id came before the answer, which changes nothing.
    obtain rfl := hfirst call hcall id hprevious
    have hmap : r.providerCallIdMap id = some callId := (h.map id callId).2 ⟨hactive, call, hcall, hprevious⟩
    have hsame : (r.put callId { call with providerCallId := some id }).mapTo id callId = r := by
      rw [← hprevious]
      simp only [Registry.put, Registry.mapTo, ← hcall, ← hmap, Function.update_eq_self]
    rw [hsame]

theorem resume_writes {result : Option Text} {task : Task} (h : m.registry.Sound)
    (hclean : Clean config m (.settle task result now)) (hr : m'.registry = m.registry)
    (hresume : m'.resume config result now task = some resumed) : m.registry.Writes resumed.registry := by
  cases task with
  | initiateCall callId =>
    cases result with
    | some providerCallId =>
      obtain ⟨hactive, hid, hfree, hfirst⟩ := hclean
      obtain rfl := Option.some.inj hresume
      rw [hr]
      exact initiated_writes h hactive hid hfree hfirst
    | none =>
      obtain rfl := Option.some.inj hresume
      rw [finalizeCall_registry, hr]
      exact .single (.finalized hclean)
  | playTts callId text caller =>
    obtain rfl := Option.some.inj hresume
    have hplayed : m.registry.Writes
        (if result.isSome then m'.edit callId fun call => addTranscriptEntry call .bot text
          else m'.edit callId fun call => transitionState call .listening).registry := by
      rw [← hr]
      split_ifs
      · exact edit_writes fun call _ => addTranscriptEntry_edited call .bot text
      · exact transition_writes _ _ (by decide)
    split_ifs at hplayed ⊢ <;> exact hplayed
  | spoken callId success caller =>
    obtain rfl := Option.some.inj hresume
    rw [← hr]
    exact spoken_writes _ _ _ _
  | startListening callId turnToken =>
    obtain rfl := Option.some.inj hresume
    split_ifs
    · rw [waitForFinalTranscript_registry, hr]
    · rw [finishTurn_registry, hr]
  | transcript callId => cases hresume
  | transcribed callId transcript =>
    obtain rfl := Option.some.inj hresume
    split_ifs
    · rw [await_registry, hr]
    · rw [finishTurn_registry, hr]
  | stopListening callId =>
    obtain rfl := Option.some.inj hresume
    rw [finishTurn_registry, ← hr]
    split_ifs
    · exact edit_writes fun call _ => ⟨rfl, rfl, .refl _, id, fun _ => rfl⟩
    · exact .refl
  | hangupCall callId reason =>
    obtain rfl := Option.some.inj hresume
    cases result with
    | some _ =>
      rw [Option.isSome_some, if_pos rfl, finalizeCall_registry, hr]
      exact .single (.finalized hclean)
    | none =>
      rw [← hr]
      exact .refl
  | notifyHangup callId =>
    obtain rfl := Option.some.inj hresume
    rw [endCall_registry, hr]

theorem maxDurationReached_writes (m : Manager) (callId : CallId) :
    m.registry.Writes (m.maxDurationReached config callId).registry := by
  unfold maxDurationReached
  dsimp only
  split
  · rw [clearMaxDurationTimer_registry]
  case h_2 call hactive =>
    split_ifs with hterminal
    · rw [clearMaxDurationTimer_registry]
    · rw [endCall_registry, edit_registry]
      refine edit_writes fun other hother => ⟨rfl, rfl, .refl _, id, fun hended => ?_⟩
      -- The timer only writes to the record of a call that goes on.
      obtain rfl := Option.some.inj ((Registry.activeCall?_eq_some_iff.1 hactive).2.symm.trans hother)
      exact absurd hended hterminal

end Manager

/-- What happens between two awaits is a series of changes. -/
theorem step_changes {action : Action} (h : m.registry.Sound) (hclean : Clean config m action)
    (hstep : step config m action = some m') : m.registry.Changes m'.registry := by
  cases action with
  | event event uuid =>
    obtain ⟨hnew, rfl⟩ : m.registry.IsNew uuid ∧ m.processEvent config event uuid = m' := by simpa [step] using hstep
    exact processEvent_changes hclean hnew.2
  | initiateCall uuid message mode =>
    obtain ⟨hnew, rfl⟩ : m.registry.IsNew uuid ∧ m.initiateCall config uuid message mode = m' := by
      simpa [step] using hstep
    exact initiateCall_changes hnew.2 message mode
  | speak callId text =>
    obtain rfl := Option.some.inj hstep
    exact (speak_writes rfl callId text .request).changes
  | speakInitialMessage providerCallId =>
    obtain rfl := Option.some.inj hstep
    exact (speakInitialMessage_writes rfl providerCallId).changes
  | continueCall callId prompt uuid =>
    obtain rfl := Option.some.inj hstep
    exact (continueCall_writes m callId prompt uuid).changes
  | endCall callId =>
    obtain rfl := Option.some.inj hstep
    rw [endCall_registry]
  | settle task result now =>
    simp only [step, Option.ite_none_right_eq_some] at hstep
    exact (resume_writes h hclean (by rfl) hstep.2).changes
  | maxDuration callId =>
    obtain ⟨-, rfl⟩ : callId ∈ m.maxDurationTimers ∧ m.maxDurationReached config callId = m' := by
      simpa [step] using hstep
    exact (maxDurationReached_writes m callId).changes
  | transcriptTimeout callId =>
    simp only [step, Option.ite_none_right_eq_some, Option.some.injEq] at hstep
    rw [← hstep.2, settleTranscript_registry]

theorem Registry.Sound.empty : Manager.empty.registry.Sound where
  nodup := .nil
  active callId := by simp [Manager.empty]
  going callId call hcall := by cases hcall
  final callId call hcall := by cases hcall
  connected callId call hcall := by cases hcall
  map providerCallId callId := by simp [Manager.empty]

theorem sound_of_reachable (h : (system config).ReachableBy (Clean config) m) : m.registry.Sound := by
  induction h with
  | init hinit =>
    obtain rfl : _ = Manager.empty := hinit
    exact .empty
  | step _ hclean hstep ih => exact (Registry.Changes.sound_later ih (step_changes ih hclean hstep)).1

-- ---
-- The law of the registry
-- ---

/-- The runs on from a state. -/
def systemFrom (config : VoiceCallConfig) (m : Manager) : System Manager Action where
  init s := s = m
  step := step config

/-- What the manager owes in a state, on the runs whose steps meet `ok`. -/
structure RegistryLaw (config : VoiceCallConfig) (ok : Manager → Action → Prop) (m : Manager) : Prop where
  /-- Calls move forward, and a finalised one keeps its state, end reason and end time. -/
  later : ∀ m', (systemFrom config m).ReachableBy ok m' → m.registry.Later m'.registry
  final : ∀ callId call, m.registry.calls callId = some call → call.Finalised →
    ∃ reason, call.state = .ended reason ∧ call.endReason = some reason
  /-- The map leads to active calls only. -/
  mapped : ∀ providerCallId callId, m.registry.providerCallIdMap providerCallId = some callId →
    callId ∈ m.registry.activeCalls
  /-- And to every one with a provider call id. -/
  found : ∀ callId call providerCallId, m.registry.activeCall? callId = some call →
    call.providerCallId = some providerCallId → m.registry.providerCallIdMap providerCallId = some callId
  /-- No event for the provider call id of a finalised call creates a call. -/
  once : ∀ event uuid m', ok m (.event event uuid) → step config m (.event event uuid) = some m' →
    ∀ providerCallId, event.providerCallId? = some providerCallId → m.registry.HasEnded providerCallId →
      ∀ callId, m.registry.calls callId = none → m'.registry.calls callId = none

/-- An event for a finalised call registers no call. -/
theorem findOrCreateCall_registry {providerCallId : ProviderCallId} (hclean : CleanEvent config m.registry event)
    (hid : event.providerCallId? = some providerCallId) (hended : m.registry.HasEnded providerCallId) :
    (m.findOrCreateCall config event uuid).1.registry = m.registry := by
  have hfree := hclean providerCallId hid
  unfold findOrCreateCall
  split
  case h_1 => rfl
  case h_2 other direction hfound hother hdirection =>
    split
    · split <;> rfl
    case isFalse haccept =>
      have haccept : direction = .inbound → shouldAcceptInbound config event.sender := by
        intro hinbound
        simpa [hinbound] using haccept
      simp only [hfound] at hfree
      exact absurd hended (hfree direction hdirection haccept).2
  case h_3 => rfl

theorem processEvent_writes {providerCallId : ProviderCallId}
    (hclean : event.key ∉ m.processedEventIds → CleanEvent config m.registry event) (hnew : m.registry.calls uuid = none)
    (hid : event.providerCallId? = some providerCallId) (hended : m.registry.HasEnded providerCallId) :
    m.registry.Writes (m.processEvent config event uuid).registry := by
  unfold processEvent
  split
  · exact .refl
  case isFalse hkey =>
    have hregistry : (findOrCreateCall config { m with processedEventIds := m.processedEventIds ++ [event.key] } event
        uuid).1.registry = m.registry :=
      findOrCreateCall_registry (m := { m with processedEventIds := m.processedEventIds ++ [event.key] }) (hclean hkey) hid
        hended
    obtain ⟨-, hspec⟩ :=
      findOrCreateCall_spec (m := { m with processedEventIds := m.processedEventIds ++ [event.key] }) (hclean hkey) hnew
    dsimp only at hspec ⊢
    split
    case h_1 hfound =>
      rw [hfound] at hregistry
      rw [hregistry]
    case h_2 hfound =>
      rw [hfound] at hregistry hspec
      obtain ⟨hactive, hfree⟩ := hspec _ rfl
      dsimp only at hregistry
      rw [← hregistry]
      exact applied_writes hactive hfree

theorem later_of_reachable (h : m.registry.Sound) (hrun : (systemFrom config m).ReachableBy (Clean config) m') :
    m'.registry.Sound ∧ m.registry.Later m'.registry := by
  induction hrun with
  | init hinit =>
    obtain rfl : _ = m := hinit
    exact ⟨h, .refl _⟩
  | step _ hclean hstep ih =>
    obtain ⟨hsound, hlater⟩ := Registry.Changes.sound_later ih.1 (step_changes ih.1 hclean hstep)
    exact ⟨hsound, ih.2.trans hlater⟩

/-- In a run whose answers find their calls active and whose provider call ids belong to one
call each, the registry keeps its law. -/
theorem registryLaw_of_clean (h : (system config).ReachableBy (Clean config) m) : RegistryLaw config (Clean config) m where
  later m' hrun := (later_of_reachable (sound_of_reachable h) hrun).2
  final := (sound_of_reachable h).final
  mapped providerCallId callId hmap := (((sound_of_reachable h).map providerCallId callId).1 hmap).1
  found callId call providerCallId hactive hid := by
    obtain ⟨hmem, hcall⟩ := Registry.activeCall?_eq_some_iff.1 hactive
    exact ((sound_of_reachable h).map providerCallId callId).2 ⟨hmem, call, hcall, hid⟩
  once event uuid m' hclean hstep providerCallId hid hended callId hnone := by
    obtain ⟨hnew, rfl⟩ : m.registry.IsNew uuid ∧ m.processEvent config event uuid = m' := by simpa [step] using hstep
    exact Registry.Writes.calls_eq_none (sound_of_reachable h) (processEvent_writes hclean hnew.2 hid hended) hnone

-- ---
-- Samples
-- ---

def sampleConfig : VoiceCallConfig where
  provider := some .twilio
  webhookUrl := some ['w']
  fromNumber := ['1']
  maxConcurrentCalls := 1
  inboundPolicy := .disabled
  allowFrom := []
  inboundGreeting := []
  defaultMode := .conversation
  deferUntilStreamConnect := false

def connected : List Action := [.initiateCall ['c'] none none, .settle (.initiateCall ['c']) (some ['p']) 0]

def completed : NormalizedEvent where
  id := ['e']
  dedupeKey := none
  callId := ['c']
  providerCallId := some ['p']
  timestamp := 1
  turnToken := none
  direction := some .outbound
  sender := none
  type := .ended .completed

theorem registryLaw_of_clean_sample :
    ∃ m, (system sampleConfig).run .empty (connected ++ [.event completed ['d']]) = some m ∧
      RegistryLaw sampleConfig (Clean sampleConfig) m := by
  refine ⟨_, rfl, registryLaw_of_clean (.step (a := Action.event completed ['d'])
    (.step (a := Action.settle (.initiateCall ['c']) (some ['p']) 0)
      (.step (a := Action.initiateCall ['c'] none none) (.init rfl) trivial rfl) ?_ rfl) ?_ rfl)⟩
  · refine ⟨by decide, by decide, fun other hother => ?_, fun call hcall id hid => ?_⟩
    · cases hother
    · cases hcall
      cases hid
  · intro _ providerCallId hid
    cases hid
    intro other hother
    exact (Option.some.inj hother).symm

/-- The provider reports the end of the call before it answers the request to hang up. -/
def hangingUp : List Action := connected ++ [.endCall ['c'], .event completed ['d']]

def ending (m : Manager) : Option (Option EndReason × Option Nat) :=
  (m.registry.calls ['c']).map fun call => (call.endReason, call.endedAt)

theorem not_registryLaw : ¬ ∀ config m, (system config).Reachable m → RegistryLaw config (fun _ _ => True) m := by
  intro h
  have hbefore : (((system sampleConfig).run .empty hangingUp).bind ending) = some (some .completed, some 1) := by decide
  have hafter : (((system sampleConfig).run .empty
      (hangingUp ++ [.settle (.hangupCall ['c'] .hangupBot) (some []) 2])).bind ending) =
        some (some .hangupBot, some 2) := by decide
  obtain ⟨m, hrun, hending⟩ := Option.bind_eq_some_iff.1 hbefore
  rw [System.run_append, hrun, Option.bind_some] at hafter
  obtain ⟨m', hrun', hending'⟩ := Option.bind_eq_some_iff.1 hafter
  obtain ⟨call, hcall, hended⟩ := Option.map_eq_some_iff.1 hending
  obtain ⟨call', hcall', hended'⟩ := Option.map_eq_some_iff.1 hending'
  have hlaw := h sampleConfig m (System.Reachable.run (.init rfl) hrun)
  have hreach : (systemFrom sampleConfig m).Reachable m' := by
    simp only [System.run, Option.bind_fun_some] at hrun'
    exact .step (.init rfl) hrun'
  obtain ⟨other, hother, hlater⟩ := hlaw.later m' hreach.by_true ['c'] call hcall
  obtain rfl : call' = other := Option.some.inj (hcall'.symm.trans hother)
  obtain ⟨hreason, hat⟩ := Prod.mk.inj hended
  obtain ⟨hreason', -⟩ := Prod.mk.inj hended'
  obtain ⟨-, hsame, -⟩ := hlater.final (by simp [CallRecord.Finalised, hat])
  rw [hreason, hreason'] at hsame
  cases hsame

end OpenClaw.VoiceCall
