import Mathlib.Data.List.Chain

/-!
# Anthropic turns

Before a transcript is sent to Anthropic, the tool uses of an assistant message that
the user message behind it does not answer are taken out, and consecutive user
messages are merged.
-/

namespace OpenClaw.Agents.Turns

-- ---
-- Messages
-- ---

inductive BlockType where
  | text
  | toolUse
  | toolResult
  | other (type : String)
  deriving DecidableEq, Repr

structure AnthropicContentBlock where
  type : BlockType
  text : Option String := none
  id : Option String := none
  name : Option String := none
  toolUseId : Option String := none
  deriving DecidableEq, Repr

/-- A block list may hold `null`. -/
inductive Content where
  | string (text : String)
  | blocks (items : List (Option AnthropicContentBlock))
  | missing
  deriving DecidableEq, Repr

/-- `rest` stands for the fields that no turn reads. -/
structure AgentMessage (φ : Type) where
  role : Option String
  content : Content
  timestamp : Option Nat := none
  rest : φ
  deriving DecidableEq, Repr

/-- A transcript may hold values that are not objects. -/
inductive Entry (φ : Type) where
  | value
  | message (msg : AgentMessage φ)
  deriving DecidableEq, Repr

variable {φ : Type}

/-- The blocks of a block list, none for other content. -/
def Content.array : Content → List (Option AnthropicContentBlock)
  | .blocks items => items
  | _ => []

/-- The role of a message, where it has one. -/
def Entry.role? : Entry φ → Option String
  | .value => none
  | .message msg => msg.role.filter (· ≠ "")

def Entry.isObject : Entry φ → Bool
  | .value => false
  | .message _ => true

def Entry.array : Entry φ → List (Option AnthropicContentBlock)
  | .value => []
  | .message msg => msg.content.array

-- ---
-- Dangling tool uses
-- ---

/-- The tool use a block answers. -/
def answeredId (block : AnthropicContentBlock) : Option String :=
  if block.type = .toolResult then block.toolUseId.filter (· ≠ "") else none

def validToolUseIds (nextUserMsg : Entry φ) : List String :=
  nextUserMsg.array.filterMap fun block => block.bind answeredId

def keepsBlock (validToolUseIds : List String) : Option AnthropicContentBlock → Bool
  | none => false
  | some block => block.type ≠ .toolUse || validToolUseIds.contains (block.id.getD "")

def omittedBlock : AnthropicContentBlock :=
  { type := .text, text := some "[tool calls omitted]" }

def filteredContent (validToolUseIds : List String)
    (originalContent : List (Option AnthropicContentBlock)) :
    List (Option AnthropicContentBlock) :=
  let filteredContent := originalContent.filter (keepsBlock validToolUseIds)
  if 0 < originalContent.length && filteredContent.length = 0 then [some omittedBlock]
  else filteredContent

/-- One turn of the loop of `stripDanglingAnthropicToolUses`. -/
def stripMessage (msg : Entry φ) (nextMsg : Option (Entry φ)) : Entry φ :=
  match msg, nextMsg with
  | .message assistantMsg, some next =>
    if msg.role? = some "assistant" ∧ next.role? = some "user" then
      .message { assistantMsg with
        content := .blocks (filteredContent (validToolUseIds next) assistantMsg.content.array) }
    else msg
  | _, _ => msg

def stripDanglingAnthropicToolUses : List (Entry φ) → List (Entry φ)
  | [] => []
  | msg :: rest => stripMessage msg rest.head? :: stripDanglingAnthropicToolUses rest

-- ---
-- Consecutive turns
-- ---

structure Merging (φ : Type) where
  result : List (Entry φ) := []
  lastRole : Option String := none

/-- One turn of the loop of `validateTurnsWithConsecutiveMerge`. -/
def mergeMessage (role : String) (merge : AgentMessage φ → AgentMessage φ → AgentMessage φ)
    (s : Merging φ) (msg : Entry φ) : Merging φ :=
  match msg, msg.role? with
  | .message currentMsg, some msgRole =>
    match s.result.getLast? with
    | some (.message lastMsg) =>
      if s.lastRole = some msgRole ∧ msgRole = role then
        { s with result := s.result.dropLast ++ [.message (merge lastMsg currentMsg)] }
      else { result := s.result ++ [msg], lastRole := some msgRole }
    | _ => { result := s.result ++ [msg], lastRole := some msgRole }
  | _, _ => { s with result := s.result ++ [msg] }

def validateTurnsWithConsecutiveMerge (messages : List (Entry φ)) (role : String)
    (merge : AgentMessage φ → AgentMessage φ → AgentMessage φ) : List (Entry φ) :=
  (messages.foldl (mergeMessage role merge) {}).result

def mergeConsecutiveUserTurns (previous current : AgentMessage φ) : AgentMessage φ :=
  { current with
    content := .blocks (previous.content.array ++ current.content.array)
    timestamp := current.timestamp.or previous.timestamp }

def validateAnthropicTurns (messages : List (Entry φ)) : List (Entry φ) :=
  validateTurnsWithConsecutiveMerge (stripDanglingAnthropicToolUses messages) "user"
    mergeConsecutiveUserTurns

end OpenClaw.Agents.Turns

/-!
# What the turns keep

A merge reads only the kinds of the messages, and tool uses are taken out without
changing a kind. So two user messages come to stand next to each other in one case
only: where a message without a role stood directly between them.
-/

namespace OpenClaw.Agents.Turns

variable {φ : Type}

-- ---
-- Kinds
-- ---

/-- What a merge reads of an entry of a transcript. -/
def Entry.kind (e : Entry φ) : Bool × Option String := (e.isObject, e.role?)

def IsUser (e : Entry φ) : Prop := e.role? = some "user"

def IsAssistant (e : Entry φ) : Prop := e.role? = some "assistant"

instance decidableIsUser (e : Entry φ) : Decidable (IsUser e) :=
  inferInstanceAs (Decidable (_ = _))

instance decidableIsAssistant (e : Entry φ) : Decidable (IsAssistant e) :=
  inferInstanceAs (Decidable (_ = _))

/-- An object without a role. -/
def Roleless (e : Entry φ) : Prop := e.isObject = true ∧ e.role? = none

/-- The role of the last message that has one. -/
def lastRole (pre : List (Entry φ)) : Option String :=
  (pre.filterMap Entry.role?).getLast?

/-- A user message behind `pre` is merged into the message before it. -/
def Joins (pre : List (Entry φ)) (msg : Entry φ) : Prop :=
  IsUser msg ∧ lastRole pre = some "user" ∧ pre.getLast?.map Entry.isObject = some true

instance decidableJoins (pre : List (Entry φ)) (msg : Entry φ) : Decidable (Joins pre msg) :=
  inferInstanceAs (Decidable (_ ∧ _))

theorem IsUser.isObject {e : Entry φ} (h : IsUser e) : e.isObject = true := by
  cases e with
  | value => cases h
  | message msg => rfl

theorem isUser_of_kind {e f : Entry φ} (h : e.kind = f.kind) : IsUser e ↔ IsUser f := by
  have hrole : e.role? = f.role? := congrArg Prod.snd h
  simp [IsUser, hrole]

theorem roleless_of_kind {e f : Entry φ} (h : e.kind = f.kind) : Roleless e ↔ Roleless f := by
  have hobject : e.isObject = f.isObject := congrArg Prod.fst h
  have hrole : e.role? = f.role? := congrArg Prod.snd h
  simp [Roleless, hobject, hrole]

@[simp] theorem lastRole_snoc (pre : List (Entry φ)) (msg : Entry φ) :
    lastRole (pre ++ [msg]) = msg.role?.or (lastRole pre) := by
  cases h : msg.role? with
  | none => simp [lastRole, List.filterMap_append, h]
  | some role => simp [lastRole, List.filterMap_append, h]

theorem lastRole_of_user {pre : List (Entry φ)} {e : Entry φ} (h : pre.getLast? = some e)
    (he : IsUser e) : lastRole pre = some "user" := by
  obtain ⟨init, rfl⟩ := List.getLast?_eq_some_iff.mp h
  rw [lastRole_snoc, he]
  rfl

-- ---
-- One message
-- ---

def merged (messages : List (Entry φ)) : Merging φ :=
  messages.foldl (mergeMessage "user" mergeConsecutiveUserTurns) {}

theorem merged_snoc (pre : List (Entry φ)) (msg : Entry φ) :
    merged (pre ++ [msg]) = mergeMessage "user" mergeConsecutiveUserTurns (merged pre) msg := by
  simp [merged]

/-- What the loop knows behind `pre`. -/
structure Follows (pre : List (Entry φ)) (s : Merging φ) : Prop where
  role : s.lastRole = lastRole pre
  last : s.result.getLast?.map Entry.kind = pre.getLast?.map Entry.kind
  /-- An entry without a role is put behind all that stands there. -/
  before : pre.getLast?.bind Entry.role? = none →
    s.result.dropLast.getLast?.map Entry.kind = pre.dropLast.getLast?.map Entry.kind

theorem Follows.isObject {pre : List (Entry φ)} {s : Merging φ} (h : Follows pre s) :
    s.result.getLast?.map Entry.isObject = pre.getLast?.map Entry.isObject := by
  have := congrArg (Option.map Prod.fst) h.last
  simpa [Option.map_map, Function.comp_def, Entry.kind] using this

theorem Follows.getLast? {pre : List (Entry φ)} {s : Merging φ} (h : Follows pre s)
    {e : Entry φ} (he : s.result.getLast? = some e) :
    ∃ f, pre.getLast? = some f ∧ f.kind = e.kind := by
  have := h.last
  rw [he, Option.map_some] at this
  exact Option.map_eq_some_iff.mp this.symm

/-- A message that joins is merged into the last of the result. -/
theorem mergeMessage_joins {pre : List (Entry φ)} {s : Merging φ} {msg : Entry φ}
    (h : Follows pre s) (hjoins : Joins pre msg) :
    ∃ init previous current, s.result = init ++ [.message previous] ∧ msg = .message current ∧
      mergeMessage "user" mergeConsecutiveUserTurns s msg =
        { s with result := init ++ [.message (mergeConsecutiveUserTurns previous current)] } := by
  obtain ⟨huser, hrole, hobject⟩ := hjoins
  rw [← h.isObject] at hobject
  obtain ⟨e, he, hobject⟩ := Option.map_eq_some_iff.mp hobject
  obtain ⟨init, hinit⟩ := List.getLast?_eq_some_iff.mp he
  cases e with
  | value => cases hobject
  | message previous =>
    cases msg with
    | value => cases huser
    | message current =>
      refine ⟨init, previous, current, hinit, rfl, ?_⟩
      have hlast : s.lastRole = some "user" := h.role.trans hrole
      have huser : (Entry.message current).role? = some "user" := huser
      simp [mergeMessage, huser, hinit, hlast]

/-- Any other is put behind the result. -/
theorem mergeMessage_stands {pre : List (Entry φ)} {s : Merging φ} {msg : Entry φ}
    (h : Follows pre s) (hstands : ¬ Joins pre msg) :
    mergeMessage "user" mergeConsecutiveUserTurns s msg =
      { result := s.result ++ [msg], lastRole := msg.role?.or s.lastRole } := by
  cases msg with
  | value => rfl
  | message current =>
    cases hrole : (Entry.message current).role? with
    | none => simp [mergeMessage, hrole]
    | some role =>
      cases hlast : s.result.getLast? with
      | none => simp [mergeMessage, hrole, hlast]
      | some e =>
        cases e with
        | value => simp [mergeMessage, hrole, hlast]
        | message previous =>
          have hne : ¬ (s.lastRole = some role ∧ role = "user") := by
            rintro ⟨hs, rfl⟩
            refine hstands ⟨hrole, h.role ▸ hs, ?_⟩
            rw [← h.isObject, hlast]
            rfl
          simp [mergeMessage, hrole, hlast, hne]

/-- The last message is neither a user's nor has a role of its own. -/
theorem roleless_of_last {pre : List (Entry φ)} {f : Entry φ} (hlast : pre.getLast? = some f)
    (hrole : lastRole pre = some "user") (hobject : f.isObject = true) (hf : ¬ IsUser f) :
    Roleless f := by
  obtain ⟨init, rfl⟩ := List.getLast?_eq_some_iff.mp hlast
  refine ⟨hobject, ?_⟩
  rw [lastRole_snoc] at hrole
  cases h : f.role? with
  | none => rfl
  | some role =>
    rw [h, Option.some_or] at hrole
    exact absurd (h.trans hrole) hf

/-- What a user message takes the place of, where that is no user message. -/
theorem Follows.roleless {pre init : List (Entry φ)} {s : Merging φ}
    {previous : AgentMessage φ} {msg : Entry φ} (h : Follows pre s)
    (hinit : s.result = init ++ [.message previous]) (hjoins : Joins pre msg)
    (hprevious : ¬ IsUser (Entry.message previous)) :
    Roleless (Entry.message previous) ∧ ∃ front f, pre = front ++ [f] ∧ Roleless f ∧
      init.getLast?.map Entry.kind = front.getLast?.map Entry.kind := by
  have hlast : s.result.getLast? = some (.message previous) := by simp [hinit]
  obtain ⟨f, hf, hkind⟩ := h.getLast? hlast
  obtain ⟨front, rfl⟩ := List.getLast?_eq_some_iff.mp hf
  have hroleless : Roleless f := by
    refine roleless_of_last hf hjoins.2.1 (congrArg Prod.fst hkind) ?_
    rwa [isUser_of_kind hkind]
  have hbefore := h.before (by simp [hroleless.2])
  exact ⟨(roleless_of_kind hkind).mp hroleless, front, f, rfl, hroleless,
    by simpa [hinit] using hbefore⟩

theorem role_mergeConsecutiveUserTurns (previous current : AgentMessage φ) :
    (Entry.message (mergeConsecutiveUserTurns previous current)).role? =
      (Entry.message current).role? := rfl

theorem Follows.step {pre : List (Entry φ)} {s : Merging φ} (h : Follows pre s)
    (msg : Entry φ) :
    Follows (pre ++ [msg]) (mergeMessage "user" mergeConsecutiveUserTurns s msg) := by
  by_cases hjoins : Joins pre msg
  · obtain ⟨init, previous, current, hinit, rfl, hstep⟩ := mergeMessage_joins h hjoins
    have huser : (Entry.message current).role? = some "user" := hjoins.1
    rw [hstep]
    refine ⟨?_, ?_, ?_⟩
    · rw [lastRole_snoc, huser, Option.some_or, h.role, hjoins.2.1]
    · simp [Entry.kind, role_mergeConsecutiveUserTurns, Entry.isObject]
    · simp [huser]
  · rw [mergeMessage_stands h hjoins]
    refine ⟨?_, ?_, fun _ => ?_⟩
    · rw [lastRole_snoc, h.role]
    · simp
    · simpa using h.last

theorem follows_merged (messages : List (Entry φ)) : Follows messages (merged messages) := by
  induction messages using List.reverseRecOn with
  | nil => exact ⟨rfl, rfl, fun _ => rfl⟩
  | append_singleton pre msg ih =>
    rw [merged_snoc]
    exact ih.step msg

-- ---
-- Consecutive user messages
-- ---

def NotBothUsers (e f : Entry φ) : Prop := ¬ (IsUser e ∧ IsUser f)

/-- A message without a role stands directly between two user messages. -/
def UsersAroundRoleless (messages : List (Entry φ)) : Prop :=
  ∃ pre u v w post, messages = pre ++ u :: v :: w :: post ∧ IsUser u ∧ Roleless v ∧ IsUser w

theorem usersAroundRoleless_snoc {pre : List (Entry φ)} {msg : Entry φ} :
    UsersAroundRoleless (pre ++ [msg]) ↔ UsersAroundRoleless pre ∨
      ∃ init u v, pre = init ++ [u, v] ∧ IsUser u ∧ Roleless v ∧ IsUser msg := by
  constructor
  · rintro ⟨init, u, v, w, post, heq, hu, hv, hw⟩
    rcases List.eq_nil_or_concat post with rfl | ⟨post, last, rfl⟩
    · have hsplit : pre ++ [msg] = (init ++ [u, v]) ++ [w] := by simpa using heq
      obtain ⟨rfl, hlast⟩ := List.append_inj' hsplit rfl
      obtain rfl : msg = w := by simpa using hlast
      exact .inr ⟨init, u, v, rfl, hu, hv, hw⟩
    · refine .inl ⟨init, u, v, w, post, ?_, hu, hv, hw⟩
      have hsplit : pre ++ [msg] = (init ++ u :: v :: w :: post) ++ [last] := by simpa using heq
      exact (List.append_inj' hsplit rfl).1
  · rintro (⟨init, u, v, w, post, rfl, hu, hv, hw⟩ | ⟨init, u, v, rfl, hu, hv, hw⟩)
    · exact ⟨init, u, v, w, post ++ [msg], by simp, hu, hv, hw⟩
    · exact ⟨init, u, v, msg, [], by simp, hu, hv, hw⟩

theorem isChain_snoc {R : Entry φ → Entry φ → Prop} {l : List (Entry φ)} {e : Entry φ} :
    (l ++ [e]).IsChain R ↔ l.IsChain R ∧ ∀ last ∈ l.getLast?, R last e := by
  simp [List.isChain_append]

theorem notBothUsers_iff_of_user {e f : Entry φ} (hf : IsUser f) :
    NotBothUsers e f ↔ ¬ IsUser e := by
  simp [NotBothUsers, hf]

theorem exists_users_around {front : List (Entry φ)} {f msg : Entry φ} (hmsg : IsUser msg) :
    (∃ init u v, front ++ [f] = init ++ [u, v] ∧ IsUser u ∧ Roleless v ∧ IsUser msg) ↔
      Roleless f ∧ ∃ u ∈ front.getLast?, IsUser u := by
  constructor
  · rintro ⟨init, u, v, heq, hu, hv, _⟩
    have hsplit : front ++ [f] = (init ++ [u]) ++ [v] := by simpa using heq
    obtain ⟨rfl, hlast⟩ := List.append_inj' hsplit rfl
    obtain rfl : f = v := by simpa using hlast
    exact ⟨hv, u, by simp, hu⟩
  · rintro ⟨hf, u, hu, huser⟩
    obtain ⟨init, rfl⟩ := List.getLast?_eq_some_iff.mp hu
    exact ⟨init, u, f, by simp, huser, hf, hmsg⟩

/-- A user message that joins stands next to a user message only where it takes the
place of a message without a role. -/
theorem joined_notBothUsers {pre init : List (Entry φ)} {s : Merging φ}
    {previous current : AgentMessage φ} (h : Follows pre s)
    (hinit : s.result = init ++ [.message previous])
    (hjoins : Joins pre (Entry.message current))
    (ih : s.result.IsChain NotBothUsers ↔ ¬ UsersAroundRoleless pre) :
    (init ++ [Entry.message (mergeConsecutiveUserTurns previous current)]).IsChain NotBothUsers ↔
      ¬ UsersAroundRoleless (pre ++ [.message current]) := by
  have huser : IsUser (Entry.message (mergeConsecutiveUserTurns previous current)) := hjoins.1
  rw [usersAroundRoleless_snoc, not_or, ← ih, hinit, isChain_snoc, isChain_snoc, and_assoc]
  refine and_congr_right fun _ => ?_
  simp only [notBothUsers_iff_of_user huser]
  by_cases hprevious : IsUser (Entry.message previous)
  · have hlast : s.result.getLast? = some (.message previous) := by simp [hinit]
    obtain ⟨f, hf, hkind⟩ := h.getLast? hlast
    obtain ⟨front, rfl⟩ := List.getLast?_eq_some_iff.mp hf
    have hnot : ¬ Roleless f := by
      rw [roleless_of_kind hkind, Roleless, hprevious]
      simp
    rw [exists_users_around hjoins.1]
    simp [notBothUsers_iff_of_user hprevious, hnot]
  · obtain ⟨-, front, f, rfl, hroleless, hbefore⟩ := h.roleless hinit hjoins hprevious
    rw [exists_users_around hjoins.1]
    have hapart : ∀ last ∈ init.getLast?, NotBothUsers last (.message previous) :=
      fun _ _ hboth => hprevious hboth.2
    rw [and_iff_right hapart, and_iff_right hroleless]
    cases hl : init.getLast? with
    | none =>
      rw [hl, Option.map_none] at hbefore
      simp [Option.map_eq_none_iff.mp hbefore.symm]
    | some last =>
      rw [hl, Option.map_some] at hbefore
      obtain ⟨u, hu, hukind⟩ := Option.map_eq_some_iff.mp hbefore.symm
      simp [hu, isUser_of_kind hukind]

theorem merged_notBothUsers (messages : List (Entry φ)) :
    (merged messages).result.IsChain NotBothUsers ↔ ¬ UsersAroundRoleless messages := by
  induction messages using List.reverseRecOn with
  | nil =>
    refine iff_of_true List.isChain_nil ?_
    rintro ⟨init, u, v, w, post, heq, _⟩
    simp at heq
  | append_singleton pre msg ih =>
    have hfollows := follows_merged pre
    rw [merged_snoc]
    by_cases hjoins : Joins pre msg
    · obtain ⟨init, previous, current, hinit, rfl, hstep⟩ := mergeMessage_joins hfollows hjoins
      rw [hstep]
      exact joined_notBothUsers hfollows hinit hjoins ih
    · rw [mergeMessage_stands hfollows hjoins, isChain_snoc, ih, usersAroundRoleless_snoc, not_or]
      refine and_congr_right fun _ => iff_of_true ?_ ?_
      · -- behind a user message a user message joins
        rintro last hlast ⟨hlastUser, huser⟩
        obtain ⟨f, hf, hkind⟩ := hfollows.getLast? hlast
        have hfUser : IsUser f := (isUser_of_kind hkind).mpr hlastUser
        exact hjoins ⟨huser, lastRole_of_user hf hfUser, by simp [hf, hfUser.isObject]⟩
      · rintro ⟨init, u, v, rfl, hu, hv, huser⟩
        refine hjoins ⟨huser, ?_, ?_⟩
        · have : lastRole (init ++ [u]) = some "user" := lastRole_of_user (by simp) hu
          rw [show init ++ [u, v] = (init ++ [u]) ++ [v] by simp, lastRole_snoc, hv.2, this]
          rfl
        · simp [hv.1]

-- ---
-- Tool uses
-- ---

/-- Every tool use of the one entry has its result in the other. -/
def Answers (userMsg assistantMsg : Entry φ) : Prop :=
  ∀ block, some block ∈ assistantMsg.array → block.type = .toolUse →
    ∃ id, block.id = some id ∧ ∃ answer, some answer ∈ userMsg.array ∧
      answer.type = .toolResult ∧ answer.toolUseId = some id

def AnsweredByNext (e next : Entry φ) : Prop := IsAssistant e → IsUser next → Answers next e

theorem not_isUser_of_isAssistant {e : Entry φ} (h : IsAssistant e) : ¬ IsUser e := by
  simp [IsUser, show e.role? = _ from h]

theorem isAssistant_of_kind {e f : Entry φ} (h : e.kind = f.kind) :
    IsAssistant e ↔ IsAssistant f := by
  have hrole : e.role? = f.role? := congrArg Prod.snd h
  simp [IsAssistant, hrole]

theorem exists_answer {userMsg : Entry φ} {id : String} (h : id ∈ validToolUseIds userMsg) :
    id ≠ "" ∧ ∃ answer, some answer ∈ userMsg.array ∧ answer.type = .toolResult ∧
      answer.toolUseId = some id := by
  obtain ⟨block, hmem, hblock⟩ := List.mem_filterMap.mp h
  obtain ⟨answer, rfl, hanswer⟩ := Option.bind_eq_some_iff.mp hblock
  unfold answeredId at hanswer
  split at hanswer
  · rename_i htype
    obtain ⟨hid, hne⟩ := Option.filter_eq_some_iff.mp hanswer
    exact ⟨by simpa using hne, answer, hmem, htype, hid⟩
  · cases hanswer

theorem answers_filteredContent {userMsg : Entry φ}
    {items : List (Option AnthropicContentBlock)} {block : AnthropicContentBlock}
    (hmem : some block ∈ filteredContent (validToolUseIds userMsg) items)
    (htype : block.type = .toolUse) :
    ∃ id, block.id = some id ∧ ∃ answer, some answer ∈ userMsg.array ∧
      answer.type = .toolResult ∧ answer.toolUseId = some id := by
  simp only [filteredContent] at hmem
  split at hmem
  · obtain rfl : block = omittedBlock := by simpa using hmem
    cases htype
  · have hkeeps := (List.mem_filter.mp hmem).2
    simp only [keepsBlock, htype, ne_eq, not_true_eq_false, decide_false, Bool.false_or,
      List.contains_iff_mem] at hkeeps
    obtain ⟨hne, answer⟩ := exists_answer hkeeps
    cases hid : block.id with
    | none => simp [hid] at hne
    | some id => exact ⟨id, rfl, by simpa [hid] using answer⟩

theorem kind_stripMessage (msg : Entry φ) (next : Option (Entry φ)) :
    (stripMessage msg next).kind = msg.kind := by
  unfold stripMessage
  split
  · split <;> rfl
  · rfl

theorem stripMessage_of_user {msg : Entry φ} (h : IsUser msg) (next : Option (Entry φ)) :
    stripMessage msg next = msg := by
  unfold stripMessage
  split
  · rw [if_neg]
    rintro ⟨hassistant, _⟩
    exact not_isUser_of_isAssistant hassistant h
  · rfl

theorem stripped_answered (messages : List (Entry φ)) :
    (stripDanglingAnthropicToolUses messages).IsChain AnsweredByNext := by
  induction messages with
  | nil => exact List.isChain_nil
  | cons msg rest ih =>
    cases rest with
    | nil => exact List.isChain_singleton _
    | cons next rest =>
      refine List.isChain_cons_cons.mpr ⟨?_, ih⟩
      intro hassistant huser
      rw [isAssistant_of_kind (kind_stripMessage _ _)] at hassistant
      rw [isUser_of_kind (kind_stripMessage _ _)] at huser
      rw [stripMessage_of_user huser]
      intro block hmem htype
      cases msg with
      | value => cases hassistant
      | message current =>
        rw [List.head?_cons, stripMessage, if_pos ⟨hassistant, huser⟩] at hmem
        exact answers_filteredContent hmem htype

/-- A message that is no user's stays the last until another one comes. -/
theorem merged_last {pre : List (Entry φ)} {e : Entry φ} (hlast : pre.getLast? = some e)
    (he : ¬ IsUser e) : (merged pre).result.getLast? = some e := by
  obtain ⟨init, rfl⟩ := List.getLast?_eq_some_iff.mp hlast
  have hstands : ¬ Joins init e := fun hjoins => he hjoins.1
  rw [merged_snoc, mergeMessage_stands (follows_merged init) hstands]
  simp

theorem Answers.merge {e : Entry φ} {previous : AgentMessage φ} (current : AgentMessage φ)
    (h : Answers (.message previous) e) :
    Answers (.message (mergeConsecutiveUserTurns previous current)) e := by
  intro block hmem htype
  obtain ⟨id, hid, answer, hanswer, hresult⟩ := h block hmem htype
  exact ⟨id, hid, answer, List.mem_append_left _ hanswer, hresult⟩

theorem joined_answered {pre init : List (Entry φ)} {s : Merging φ}
    {previous current : AgentMessage φ} (h : Follows pre s)
    (hinit : s.result = init ++ [.message previous])
    (hjoins : Joins pre (Entry.message current)) (ih : s.result.IsChain AnsweredByNext) :
    (init ++ [Entry.message (mergeConsecutiveUserTurns previous current)]).IsChain
      AnsweredByNext := by
  rw [hinit, isChain_snoc] at ih
  refine isChain_snoc.mpr ⟨ih.1, fun last hlast hassistant _ => ?_⟩
  by_cases hprevious : IsUser (Entry.message previous)
  · exact (ih.2 last hlast hassistant hprevious).merge current
  · -- the message taken over has no role, so an assistant message would be the last with one
    obtain ⟨-, front, f, rfl, hroleless, hbefore⟩ := h.roleless hinit hjoins hprevious
    rw [show init.getLast? = some last from hlast, Option.map_some] at hbefore
    obtain ⟨u, hu, hukind⟩ := Option.map_eq_some_iff.mp hbefore.symm
    obtain ⟨front, rfl⟩ := List.getLast?_eq_some_iff.mp hu
    have hrole := hjoins.2.1
    have hassistant : u.role? = some "assistant" := (isAssistant_of_kind hukind).mpr hassistant
    rw [lastRole_snoc, lastRole_snoc, hroleless.2, hassistant] at hrole
    simp at hrole

theorem merged_answered {messages : List (Entry φ)} (h : messages.IsChain AnsweredByNext) :
    (merged messages).result.IsChain AnsweredByNext := by
  induction messages using List.reverseRecOn with
  | nil => exact List.isChain_nil
  | append_singleton pre msg ih =>
    obtain ⟨hpre, hnext⟩ := isChain_snoc.mp h
    have hfollows := follows_merged pre
    rw [merged_snoc]
    by_cases hjoins : Joins pre msg
    · obtain ⟨init, previous, current, hinit, rfl, hstep⟩ := mergeMessage_joins hfollows hjoins
      rw [hstep]
      exact joined_answered hfollows hinit hjoins (ih hpre)
    · rw [mergeMessage_stands hfollows hjoins]
      refine isChain_snoc.mpr ⟨ih hpre, fun last hlast hassistant huser => ?_⟩
      obtain ⟨f, hf, hkind⟩ := hfollows.getLast? hlast
      have hfassistant : IsAssistant f := (isAssistant_of_kind hkind).mpr hassistant
      obtain rfl : f = last := by
        have := merged_last hf (not_isUser_of_isAssistant hfassistant)
        exact Option.some.inj (this.symm.trans hlast)
      exact hnext f hf hassistant huser

end OpenClaw.Agents.Turns
