import OpenClaw.Js.CodeUnits

/-!
# Coalescing block replies

The texts of block replies are gathered in a buffer, until it is full, until a reply comes
that does not fit to it, or until it is flushed.
-/

namespace OpenClaw.AutoReply.BlockReplyCoalescer

open Js

structure BlockStreamingCoalescing where
  minChars : Number
  maxChars : Number
  idleMs : Number
  joiner : Option CodeUnits
  flushOnEnqueue : Option Bool

structure ReplyPayload where
  text : Option CodeUnits := none
  mediaUrl : Option CodeUnits := none
  mediaUrls : Option (List CodeUnits) := none
  replyToId : Option CodeUnits := none
  audioAsVoice : Option Bool := none
  deriving DecidableEq

/-- The constants of `createBlockReplyCoalescer`. -/
structure Coalescer where
  minChars : Number
  maxChars : Number
  idleMs : Number
  joiner : CodeUnits
  flushOnEnqueue : Bool

structure State where
  bufferText : CodeUnits := []
  bufferReplyToId : Option CodeUnits := none
  bufferAudioAsVoice : Option Bool := none
  /-- A timer is set. -/
  idleTimer : Bool := false
  deriving DecidableEq

/-- What a call leaves behind, with the payloads handed to `onFlush`. -/
abbrev Outcome := State × List ReplyPayload

def createBlockReplyCoalescer (config : BlockStreamingCoalescing) : Coalescer :=
  let minChars := Number.max (.ofInt 1) config.minChars.floor
  { minChars
    maxChars := Number.max minChars config.maxChars.floor
    idleMs := Number.max (.ofInt 0) config.idleMs.floor
    joiner := config.joiner.getD []
    flushOnEnqueue := config.flushOnEnqueue = some true }

/-- `Boolean(value)` -/
def truthy (value : Option CodeUnits) : Bool := value.any (· ≠ [])

-- ---
-- Parts of a payload
-- ---

def resolveOutboundMediaUrls (payload : ReplyPayload) : List CodeUnits :=
  let mediaUrls := payload.mediaUrls.getD []
  if mediaUrls ≠ [] then mediaUrls
  else if truthy payload.mediaUrl then [payload.mediaUrl.getD []] else []

def ReplyPayload.textOf (payload : ReplyPayload) : CodeUnits := payload.text.getD []

def ReplyPayload.hasText (payload : ReplyPayload) : Bool := !isBlank payload.textOf

def ReplyPayload.hasMedia (payload : ReplyPayload) : Bool :=
  (resolveOutboundMediaUrls payload).any (!isBlank ·)

def ReplyPayload.hasContent (payload : ReplyPayload) : Bool := payload.hasText || payload.hasMedia

-- ---
-- Calls
-- ---

namespace Coalescer

variable (c : Coalescer)

def resetBuffer (s : State) : State :=
  { s with bufferText := [], bufferReplyToId := none, bufferAudioAsVoice := none }

def scheduleIdleFlush (s : State) : State :=
  if c.idleMs.le (.ofInt 0) then s else { s with idleTimer := true }

def flush (shouldAbort force : Bool) (s : State) : Outcome :=
  let s := { s with idleTimer := false }
  if shouldAbort then (resetBuffer s, [])
  else if s.bufferText = [] then (s, [])
  else if !force && !c.flushOnEnqueue && (lengthOf s.bufferText).lt c.minChars then
    (c.scheduleIdleFlush s, [])
  else
    (resetBuffer s,
      [{ text := some s.bufferText
         replyToId := s.bufferReplyToId
         audioAsVoice := s.bufferAudioAsVoice }])

/-- The buffer takes the target and the voice flag of the payload. -/
def retarget (payload : ReplyPayload) (s : State) : State :=
  { s with bufferReplyToId := payload.replyToId, bufferAudioAsVoice := payload.audioAsVoice }

/-- `flush` before something else, where there is a reason to. -/
def flushIf (needed : Bool) (s : State) : Outcome :=
  if needed then c.flush false true s else (s, [])

def replyToConflict (payload : ReplyPayload) (s : State) : Bool :=
  s.bufferText ≠ [] && truthy payload.replyToId &&
    (!truthy s.bufferReplyToId || s.bufferReplyToId ≠ payload.replyToId)

/-- The end of `enqueue`, once a buffer that conflicts is flushed. -/
def gather (payload : ReplyPayload) (s : State) : Outcome :=
  let text := payload.textOf
  let s := if s.bufferText = [] then retarget payload s else s
  let nextText := if s.bufferText ≠ [] then s.bufferText ++ c.joiner ++ text else text
  if c.maxChars.lt (lengthOf nextText) then
    if s.bufferText ≠ [] then
      let (s, flushed) := c.flush false true s
      let s := retarget payload s
      if c.maxChars.le (lengthOf text) then (s, flushed ++ [payload])
      else (c.scheduleIdleFlush { s with bufferText := text }, flushed)
    else (s, [payload])
  else
    let s := { s with bufferText := nextText }
    if c.maxChars.le (lengthOf s.bufferText) then c.flush false true s
    else (c.scheduleIdleFlush s, [])

def enqueue (shouldAbort : Bool) (payload : ReplyPayload) (s : State) : Outcome :=
  if shouldAbort then (s, [])
  else if payload.hasMedia then
    let (s, flushed) := c.flush false true s
    (s, flushed ++ [payload])
  else if !payload.hasText then (s, [])
  else if c.flushOnEnqueue then
    let (s, flushed) := c.flushIf (s.bufferText ≠ []) s
    let (s, own) := c.flush false true { retarget payload s with bufferText := payload.textOf }
    (s, flushed ++ own)
  else
    let conflict := replyToConflict payload s || s.bufferAudioAsVoice ≠ payload.audioAsVoice
    let (s, flushed) := c.flushIf (s.bufferText ≠ [] && conflict) s
    let (s, gathered) := c.gather payload s
    (s, flushed ++ gathered)

inductive Call
  | enqueue (payload : ReplyPayload)
  | flush (force : Bool)
  /-- The idle timer goes off. -/
  | idle
  | stop

def step (shouldAbort : Bool) (s : State) : Call → Outcome
  | .enqueue payload => c.enqueue shouldAbort payload s
  | .flush force => c.flush shouldAbort force s
  | .idle => if s.idleTimer then c.flush shouldAbort false s else (s, [])
  | .stop => ({ s with idleTimer := false }, [])

/-- A sequence of calls of which none is aborted. -/
def run : List Call → State → Outcome
  | [], s => (s, [])
  | call :: calls, s =>
    let (s, flushed) := c.step false s call
    let (s, rest) := run calls s
    (s, flushed ++ rest)

-- ---
-- Payloads gathered into one
-- ---

/-- The texts of the payloads, with the joiner between them. -/
def joined (payloads : List ReplyPayload) : CodeUnits :=
  List.intercalate c.joiner (payloads.map ReplyPayload.textOf)

/-- The payload has the voice flag, and the target if it has one. -/
def Agrees (payload : ReplyPayload) (replyToId : Option CodeUnits) (audioAsVoice : Option Bool) :
    Prop :=
  (truthy payload.replyToId → payload.replyToId = replyToId) ∧ payload.audioAsVoice = audioAsVoice

/-- The flushed payload is made of the payloads of the group. -/
structure Assembled (flushed : ReplyPayload) (group : List ReplyPayload) : Prop where
  nonempty : group ≠ []
  text : flushed.textOf = c.joined group
  fits : 2 ≤ group.length → c.maxChars.lt (lengthOf flushed.textOf) = false
  noMedia : 2 ≤ group.length → ∀ payload ∈ group, payload.hasMedia = false
  agrees : ∀ payload ∈ group, Agrees payload flushed.replyToId flushed.audioAsVoice

/-- The buffer is made of the payloads of the group. -/
structure Holds (s : State) (group : List ReplyPayload) : Prop where
  text : s.bufferText = c.joined group
  texts : ∀ payload ∈ group, payload.hasText = true ∧ payload.hasMedia = false
  fits : 2 ≤ group.length → c.maxChars.lt (lengthOf s.bufferText) = false
  agrees : ∀ payload ∈ group, Agrees payload s.bufferReplyToId s.bufferAudioAsVoice

/-- The pending payloads are flushed in groups, except for the last ones, which are held. -/
def Delivers (outcome : Outcome) (pending : List ReplyPayload) : Prop :=
  ∃ groups rest, List.Forall₂ c.Assembled outcome.2 groups ∧ groups.flatten ++ rest = pending ∧
    c.Holds outcome.1 rest

variable {c : Coalescer}

theorem textOf_ne_nil {payload : ReplyPayload} (h : payload.hasText = true) :
    payload.textOf ≠ [] := by
  intro hnil
  simp [ReplyPayload.hasText, hnil, isBlank] at h

@[simp] theorem joined_nil : c.joined [] = [] := rfl

@[simp] theorem joined_singleton (payload : ReplyPayload) : c.joined [payload] = payload.textOf :=
  List.intercalate_singleton

theorem joined_append (h : group ≠ []) (h' : group' ≠ []) :
    c.joined (group ++ group') = c.joined group ++ c.joiner ++ c.joined group' := by
  induction group with
  | nil => exact absurd rfl h
  | cons payload group ih =>
    cases group with
    | nil =>
      rw [joined_singleton, joined, List.singleton_append, List.map_cons,
        List.intercalate_cons_of_ne_nil (by simpa using h')]
      simp only [joined, List.append_assoc]
    | cons next group =>
      have hrest := ih (List.cons_ne_nil next group)
      simp only [joined, List.cons_append, List.map_cons, List.intercalate_cons_cons] at hrest ⊢
      rw [hrest]
      simp only [List.append_assoc]

theorem joined_flatten {groups : List (List ReplyPayload)} (h : ∀ group ∈ groups, group ≠ []) :
    List.intercalate c.joiner (groups.map c.joined) = c.joined groups.flatten := by
  induction groups with
  | nil => rfl
  | cons group groups ih =>
    obtain ⟨hgroup, hgroups⟩ := List.forall_mem_cons.mp h
    cases groups with
    | nil => simp
    | cons next groups =>
      have hnext : (next :: groups).flatten ≠ [] := by
        simpa using fun hnil => absurd hnil (hgroups next List.mem_cons_self)
      rw [List.map_cons, List.intercalate_cons_of_ne_nil (by simp), ih hgroups,
        ← joined_append hgroup hnext, ← List.flatten_cons]

theorem Holds.nil (h : s.bufferText = []) : c.Holds s [] where
  text := h
  texts := List.forall_mem_nil _
  fits := by simp
  agrees := List.forall_mem_nil _

theorem Holds.eq_nil_iff (h : c.Holds s group) : s.bufferText = [] ↔ group = [] := by
  constructor
  · intro hnil
    cases group with
    | nil => rfl
    | cons payload group =>
      have hpayload := textOf_ne_nil (h.texts payload List.mem_cons_self).1
      have htext := h.text.symm.trans hnil
      cases group with
      | nil => exact absurd (joined_singleton payload ▸ htext) hpayload
      | cons next group =>
        rw [← List.singleton_append, joined_append (by simp) (by simp)] at htext
        simp [hpayload] at htext
  · rintro rfl
    exact h.text

theorem Holds.assembled (h : c.Holds s group) (hne : s.bufferText ≠ []) :
    c.Assembled
      { text := some s.bufferText
        replyToId := s.bufferReplyToId
        audioAsVoice := s.bufferAudioAsVoice } group where
  nonempty := fun hnil => hne (h.eq_nil_iff.mpr hnil)
  text := h.text
  fits := h.fits
  noMedia _ payload hmem := (h.texts payload hmem).2
  agrees := h.agrees

theorem assembled_self (payload : ReplyPayload) : c.Assembled payload [payload] where
  nonempty := List.cons_ne_nil _ _
  text := (joined_singleton payload).symm
  fits hlength := absurd hlength (by simp)
  noMedia hlength := absurd hlength (by simp)
  agrees other hmem := by
    rw [List.mem_singleton.mp hmem]
    exact ⟨fun _ => rfl, rfl⟩

/-- The timer is no part of what is held. -/
theorem Holds.timer (h : c.Holds s group) (timer : Bool) :
    c.Holds { s with idleTimer := timer } group where
  text := h.text
  texts := h.texts
  fits := h.fits
  agrees := h.agrees

theorem Holds.scheduled (h : c.Holds s group) : c.Holds (c.scheduleIdleFlush s) group := by
  unfold scheduleIdleFlush
  split
  · exact h
  · exact h.timer true

-- ---
-- What a call delivers
-- ---

theorem Holds.delivers (h : c.Holds s group) : c.Delivers (s, []) group :=
  ⟨[], group, .nil, rfl, h⟩

theorem delivers_alone (h : s.bufferText = []) (payload : ReplyPayload) :
    c.Delivers (s, [payload]) [payload] :=
  ⟨[[payload]], [], .cons (assembled_self payload) .nil, rfl, .nil h⟩

theorem Delivers.append (h : c.Delivers outcome pending)
    (hnext : ∀ rest, c.Holds outcome.1 rest → c.Delivers (s, out) (rest ++ more)) :
    c.Delivers (s, outcome.2 ++ out) (pending ++ more) := by
  obtain ⟨groups, rest, hgroups, rfl, hrest⟩ := h
  obtain ⟨groups', rest', hgroups', heq, hrest'⟩ := hnext rest hrest
  refine ⟨groups ++ groups', rest', List.rel_append hgroups hgroups', ?_, hrest'⟩
  rw [List.flatten_append, List.append_assoc, heq, List.append_assoc]

theorem delivers_flush (h : c.Holds s group) (force : Bool) :
    c.Delivers (c.flush false force s) group := by
  unfold flush
  simp only [Bool.false_eq_true, if_false]
  split
  · exact (h.timer false).delivers
  next hne =>
    split
    · exact (h.timer false).scheduled.delivers
    · exact ⟨[group], [], .cons ((h.timer false).assembled hne) .nil, by simp, .nil rfl⟩

@[simp] theorem flush_bufferText (s : State) : (c.flush false true s).1.bufferText = [] := by
  unfold flush
  simp only [Bool.false_eq_true, if_false, Bool.not_true, Bool.false_and]
  split
  · assumption
  · rfl

/-- After a forced flush nothing is held. -/
theorem Delivers.append_flush (h : c.Holds s group)
    (hnext : c.Delivers (s', out) more) :
    c.Delivers (s', (c.flush false true s).2 ++ out) (group ++ more) := by
  refine (delivers_flush h true).append fun rest hrest => ?_
  rw [hrest.eq_nil_iff.mp (flush_bufferText s)]
  exact hnext

theorem holds_retarget {payload : ReplyPayload} (htext : payload.hasText = true)
    (hmedia : payload.hasMedia = false) (s : State) :
    c.Holds { retarget payload s with bufferText := payload.textOf } [payload] where
  text := (joined_singleton payload).symm
  texts := by simp [htext, hmedia]
  fits hlength := absurd hlength (by simp)
  agrees other hmem := by
    rw [List.mem_singleton.mp hmem]
    exact ⟨fun _ => rfl, rfl⟩

theorem delivers_full (h : c.Holds s group) :
    c.Delivers
      (if c.maxChars.le (lengthOf s.bufferText) then c.flush false true s
        else (c.scheduleIdleFlush s, [])) group := by
  split
  · exact delivers_flush h true
  · exact h.scheduled.delivers

section Gather

variable {payload : ReplyPayload} (htext : payload.hasText = true)
  (hmedia : payload.hasMedia = false)
include htext hmedia

/-- A payload that agrees with what is held, where the whole fits. -/
theorem Holds.push (h : c.Holds s group) (hne : s.bufferText ≠ [])
    (hagrees : Agrees payload s.bufferReplyToId s.bufferAudioAsVoice)
    (hfits : c.maxChars.lt (lengthOf (s.bufferText ++ c.joiner ++ payload.textOf)) = false) :
    c.Holds { s with bufferText := s.bufferText ++ c.joiner ++ payload.textOf }
      (group ++ [payload]) where
  text := by
    rw [joined_append (fun hnil => hne (h.eq_nil_iff.mpr hnil)) (List.cons_ne_nil _ _), h.text,
      joined_singleton]
  texts := by simpa [or_imp, forall_and, htext, hmedia] using h.texts
  fits _ := hfits
  agrees := List.forall_mem_append.mpr ⟨h.agrees, by simpa using hagrees⟩

theorem delivers_gather (h : c.Holds s group)
    (hagrees : s.bufferText ≠ [] → Agrees payload s.bufferReplyToId s.bufferAudioAsVoice) :
    c.Delivers (c.gather payload s) (group ++ [payload]) := by
  unfold gather
  by_cases hempty : s.bufferText = []
  · obtain rfl := h.eq_nil_iff.mp hempty
    have hretarget : (retarget payload s).bufferText = [] := hempty
    simp only [hempty, if_true, hretarget, ne_eq, not_true_eq_false, if_false, List.nil_append]
    split
    · exact delivers_alone hretarget payload
    · exact delivers_full (holds_retarget htext hmedia s)
  · simp only [hempty, if_false, ne_eq, not_false_eq_true, if_true]
    split
    · split
      · have hempty' : (retarget payload (c.flush false true s).1).bufferText = [] :=
          flush_bufferText s
        exact .append_flush h (delivers_alone hempty' payload)
      · rw [← List.append_nil (c.flush false true s).2]
        exact .append_flush h (holds_retarget htext hmedia _).scheduled.delivers
    next hfits =>
      exact delivers_full
        (h.push htext hmedia hempty (hagrees hempty) (by simpa using hfits))

end Gather

/-- Where there is no conflict the payload agrees with the buffer. -/
theorem agrees_of_not_conflict {payload : ReplyPayload} (hne : s.bufferText ≠ [])
    (hconflict : replyToConflict payload s = false)
    (hvoice : s.bufferAudioAsVoice = payload.audioAsVoice) :
    Agrees payload s.bufferReplyToId s.bufferAudioAsVoice := by
  refine ⟨fun hpayload => ?_, hvoice.symm⟩
  by_contra hother
  simp [replyToConflict, hne, hpayload, Ne.symm hother] at hconflict

theorem delivers_flushIf (h : c.Holds s group) (needed : Bool) :
    c.Delivers (c.flushIf needed s) group := by
  unfold flushIf
  split
  · exact delivers_flush h true
  · exact h.delivers

theorem delivers_enqueue (h : c.Holds s group) (payload : ReplyPayload) :
    c.Delivers (c.enqueue false payload s) (group ++ [payload].filter ReplyPayload.hasContent) := by
  unfold enqueue
  cases hmedia : payload.hasMedia with
  | true =>
    have hcontent : payload.hasContent = true := by simp [ReplyPayload.hasContent, hmedia]
    simp only [Bool.false_eq_true, if_false, if_true, List.filter_cons_of_pos hcontent,
      List.filter_nil]
    exact .append_flush h (delivers_alone (flush_bufferText s) payload)
  | false =>
    cases htext : payload.hasText with
    | false =>
      have hcontent : ¬ payload.hasContent = true := by
        simp [ReplyPayload.hasContent, hmedia, htext]
      simp only [Bool.false_eq_true, if_false, Bool.not_false, if_true,
        List.filter_cons_of_neg hcontent, List.filter_nil, List.append_nil]
      exact h.delivers
    | true =>
      have hcontent : payload.hasContent = true := by simp [ReplyPayload.hasContent, htext]
      simp only [Bool.false_eq_true, if_false, Bool.not_true, List.filter_cons_of_pos hcontent,
        List.filter_nil]
      split
      · refine (delivers_flushIf h _).append fun rest hrest => ?_
        have hempty : (c.flushIf (s.bufferText ≠ []) s).1.bufferText = [] := by
          unfold flushIf
          split
          · exact flush_bufferText s
          · simp_all
        rw [hrest.eq_nil_iff.mp hempty]
        exact delivers_flush (holds_retarget htext hmedia _) true
      · refine (delivers_flushIf h _).append fun rest hrest => ?_
        refine delivers_gather htext hmedia hrest fun hne => ?_
        unfold flushIf at hne ⊢
        split at hne
        · exact absurd (flush_bufferText s) hne
        next hneeded =>
          rw [if_neg hneeded]
          simp only [Bool.and_eq_true, decide_eq_true_eq, not_and, Bool.or_eq_true, not_or,
            ne_eq, not_not, Bool.not_eq_true] at hneeded
          obtain ⟨hconflict, hvoice⟩ := hneeded hne
          exact agrees_of_not_conflict hne hconflict hvoice

/-- The payloads that a call brings in: of those without media, the ones with a text. -/
def Call.enqueued : Call → List ReplyPayload
  | .enqueue payload => [payload].filter ReplyPayload.hasContent
  | _ => []

theorem delivers_step (h : c.Holds s group) (call : Call) :
    c.Delivers (c.step false s call) (group ++ call.enqueued) := by
  cases call with
  | enqueue payload => exact delivers_enqueue h payload
  | flush force => exact (List.append_nil group).symm ▸ delivers_flush h force
  | idle =>
    have hnone : Call.idle.enqueued = [] := rfl
    rw [hnone, List.append_nil, step]
    split
    · exact delivers_flush h false
    · exact h.delivers
  | stop => exact (List.append_nil group).symm ▸ (h.timer false).delivers

theorem delivers_run (calls : List Call) (h : c.Holds s group) :
    c.Delivers (c.run calls s) (group ++ calls.flatMap Call.enqueued) := by
  induction calls generalizing s group with
  | nil => simpa [run] using h.delivers
  | cons call calls ih =>
    rw [run, List.flatMap_cons, ← List.append_assoc]
    exact (delivers_step h call).append fun rest hrest => ih hrest

theorem run_append (calls calls' : List Call) (s : State) :
    c.run (calls ++ calls') s =
      ((c.run calls' (c.run calls s).1).1,
        (c.run calls s).2 ++ (c.run calls' (c.run calls s).1).2) := by
  induction calls generalizing s with
  | nil => rfl
  | cons call calls ih => simp [run, ih, List.append_assoc]

theorem textOf_assembled (h : List.Forall₂ c.Assembled flushed groups) :
    flushed.map ReplyPayload.textOf = groups.map c.joined := by
  induction h with
  | nil => rfl
  | cons hgroup _ ih => rw [List.map_cons, List.map_cons, hgroup.text, ih]

theorem nonempty_of_assembled (h : List.Forall₂ c.Assembled flushed groups) :
    ∀ group ∈ groups, group ≠ [] := by
  induction h with
  | nil => exact List.forall_mem_nil _
  | cons hgroup _ ih => exact List.forall_mem_cons.mpr ⟨hgroup.nonempty, ih⟩

/-- The payloads answer different messages, or their voice flags differ. -/
def Conflicting (payload other : ReplyPayload) : Prop :=
  truthy payload.replyToId ∧ truthy other.replyToId ∧ payload.replyToId ≠ other.replyToId ∨
    payload.audioAsVoice ≠ other.audioAsVoice

theorem Agrees.not_conflicting (h : Agrees payload replyToId audioAsVoice)
    (h' : Agrees other replyToId audioAsVoice) : ¬ Conflicting payload other := by
  rintro (⟨hsome, hsome', hne⟩ | hne)
  · exact hne ((h.1 hsome).trans (h'.1 hsome').symm)
  · exact hne (h.2.trans h'.2.symm)

theorem Assembled.not_conflicting (h : c.Assembled flushed group) :
    ∀ payload ∈ group, ∀ other ∈ group, ¬ Conflicting payload other :=
  fun payload hpayload other hother =>
    (h.agrees payload hpayload).not_conflicting (h.agrees other hother)

end Coalescer

open Coalescer

section Run

variable (config : BlockStreamingCoalescing) (calls : List Call)

/-- What is handed out by the calls and a forced flush at their end. -/
def flushedPayloads : List ReplyPayload :=
  ((createBlockReplyCoalescer config).run (calls ++ [.flush true]) {}).2

/-- Every payload with media or a text gets into exactly one of the flushed ones, in order. -/
theorem flushed_assembled :
    ∃ groups : List (List ReplyPayload),
      List.Forall₂ (createBlockReplyCoalescer config).Assembled (flushedPayloads config calls)
          groups ∧
        groups.flatten = calls.flatMap Call.enqueued := by
  set c := createBlockReplyCoalescer config
  obtain ⟨groups, rest, hgroups, heq, hrest⟩ :=
    delivers_run (calls ++ [.flush true]) (.nil rfl : c.Holds {} [])
  have hempty : (c.run (calls ++ [.flush true]) {}).1.bufferText = [] := by
    rw [run_append]
    exact flush_bufferText _
  rw [hrest.eq_nil_iff.mp hempty, List.append_nil, List.nil_append, List.flatMap_append] at heq
  exact ⟨groups, hgroups, heq.trans (List.append_nil _)⟩

/-- The flushed texts are the enqueued ones. What is put together from several payloads is not
longer than `maxChars`, and none of these conflict. -/
theorem flushed_preserves :
    List.intercalate (createBlockReplyCoalescer config).joiner
        ((flushedPayloads config calls).map ReplyPayload.textOf) =
      List.intercalate (createBlockReplyCoalescer config).joiner
        ((calls.flatMap Call.enqueued).map ReplyPayload.textOf) ∧
    ∃ groups : List (List ReplyPayload),
      groups.flatten = calls.flatMap Call.enqueued ∧
      List.Forall₂ (fun flushed group =>
          (createBlockReplyCoalescer config).Assembled flushed group ∧
            ∀ payload ∈ group, ∀ other ∈ group, ¬ Conflicting payload other)
        (flushedPayloads config calls) groups := by
  obtain ⟨groups, hgroups, heq⟩ := flushed_assembled config calls
  refine ⟨?_, groups, heq, hgroups.imp fun _ _ h => ⟨h, h.not_conflicting⟩⟩
  rw [textOf_assembled hgroups, joined_flatten (nonempty_of_assembled hgroups), heq, joined]

end Run

/-- A blank text is dropped. -/
theorem not_flushed_all :
    ¬ ∀ (config : BlockStreamingCoalescing) (payloads : List ReplyPayload),
      List.intercalate (createBlockReplyCoalescer config).joiner
          ((flushedPayloads config (payloads.map .enqueue)).map ReplyPayload.textOf) =
        List.intercalate (createBlockReplyCoalescer config).joiner
          (payloads.map ReplyPayload.textOf) := by
  intro h
  have hblank := h ⟨.ofInt 1, .ofInt 10, .ofInt 0, none, none⟩ [{ text := some [unit ' '] }]
  exact absurd hblank (by decide)

end OpenClaw.AutoReply.BlockReplyCoalescer
