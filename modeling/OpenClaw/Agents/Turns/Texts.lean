import OpenClaw.Agents.Turns

/-!
# What the turns say

A text in a block list is never lost. A text that is the whole content of a message is:
where it is an assistant's and the next message a user's, and where the message is a
user's and is merged with a neighbour.
-/

namespace OpenClaw.Agents.Turns

variable {φ : Type}

def blockText (block : AnthropicContentBlock) : Option String :=
  if block.type = .text then block.text else none

def blockTexts (items : List (Option AnthropicContentBlock)) : List String :=
  items.filterMap fun block => block.bind blockText

def Content.texts : Content → List String
  | .string text => [text]
  | .blocks items => blockTexts items
  | .missing => []

/-- The texts of a user or an assistant message. -/
def Entry.texts : Entry φ → List String
  | .value => []
  | .message msg =>
    if IsUser (.message msg) ∨ IsAssistant (.message msg) then msg.content.texts else []

def Entry.isString : Entry φ → Bool
  | .message { content := .string _, .. } => true
  | _ => false

/-- The text of a message behind `pre` and in front of `rest` is dropped. -/
def Dropped (pre : List (Entry φ)) (msg : Entry φ) (rest : List (Entry φ)) : Prop :=
  msg.isString = true ∧
    (Joins pre msg ∨ ((IsUser msg ∨ IsAssistant msg) ∧ rest.head?.bind Entry.role? = some "user"))

instance decidableDropped (pre : List (Entry φ)) (msg : Entry φ) (rest : List (Entry φ)) :
    Decidable (Dropped pre msg rest) :=
  inferInstanceAs (Decidable (_ ∧ _))

/-- The texts of the user and assistant messages behind `pre`, without the dropped ones. -/
def keptTexts (pre : List (Entry φ)) : List (Entry φ) → List String
  | [] => []
  | msg :: rest =>
    (if Dropped pre msg rest then [] else msg.texts) ++ keptTexts (pre ++ [msg]) rest

-- ---
-- Stripping
-- ---

theorem blockText_of_not_keepsBlock {ids : List String} {block : Option AnthropicContentBlock}
    (h : keepsBlock ids block = false) : block.bind blockText = none := by
  cases block with
  | none => rfl
  | some block =>
    have htype : block.type = .toolUse := by
      by_contra hne
      simp [keepsBlock, hne] at h
    simp [blockText, htype]

theorem blockTexts_filter (ids : List String) (items : List (Option AnthropicContentBlock)) :
    blockTexts (items.filter (keepsBlock ids)) = blockTexts items := by
  induction items with
  | nil => rfl
  | cons block items ih =>
    cases h : keepsBlock ids block with
    | true =>
      rw [List.filter_cons_of_pos h]
      simp only [blockTexts, List.filterMap_cons] at ih ⊢
      rw [ih]
    | false =>
      rw [List.filter_cons_of_neg (by simp [h]), ih]
      simp only [blockTexts, List.filterMap_cons, blockText_of_not_keepsBlock h]

theorem blockTexts_filteredContent (ids : List String)
    (items : List (Option AnthropicContentBlock)) :
    (blockTexts items).Sublist (blockTexts (filteredContent ids items)) := by
  simp only [filteredContent]
  split
  · rename_i h
    have hempty : (items.filter (keepsBlock ids)).length = 0 := by
      simp only [Bool.and_eq_true, decide_eq_true_eq] at h
      exact h.2
    rw [← blockTexts_filter ids, List.length_eq_zero_iff.mp hempty]
    exact List.nil_sublist _
  · rw [blockTexts_filter]

theorem joins_of_kinds {pre pre' : List (Entry φ)} {msg msg' : Entry φ}
    (hpre : pre.map Entry.kind = pre'.map Entry.kind) (hmsg : msg.kind = msg'.kind) :
    Joins pre msg ↔ Joins pre' msg' := by
  have hroles : pre.filterMap Entry.role? = pre'.filterMap Entry.role? := by
    have := congrArg (List.filterMap Prod.snd) hpre
    simpa [List.filterMap_map, Function.comp_def, Entry.kind] using this
  have hobject : pre.getLast?.map Entry.isObject = pre'.getLast?.map Entry.isObject := by
    have := congrArg (fun kinds => kinds.getLast?.map Prod.fst) hpre
    simpa [List.getLast?_map, Function.comp_def, Entry.kind] using this
  rw [Joins, Joins, isUser_of_kind hmsg, lastRole, lastRole, hroles, hobject]

theorem kinds_strip (messages : List (Entry φ)) :
    (stripDanglingAnthropicToolUses messages).map Entry.kind = messages.map Entry.kind := by
  induction messages with
  | nil => rfl
  | cons msg rest ih =>
    rw [stripDanglingAnthropicToolUses, List.map_cons, List.map_cons, ih, kind_stripMessage]

theorem head_role_strip (messages : List (Entry φ)) :
    (stripDanglingAnthropicToolUses messages).head?.bind Entry.role? =
      messages.head?.bind Entry.role? := by
  cases messages with
  | nil => rfl
  | cons msg rest => exact congrArg Prod.snd (kind_stripMessage msg rest.head?)

theorem texts_of_not_string {e : Entry φ} (h : e.isString = false) :
    e.texts.Sublist (blockTexts e.array) := by
  cases e with
  | value => exact List.nil_sublist _
  | message msg =>
    obtain ⟨role, content, timestamp, rest⟩ := msg
    cases content with
    | string text => cases h
    | blocks items =>
      simp only [Entry.texts]
      split
      · exact List.Sublist.refl _
      · exact List.nil_sublist _
    | missing => simp [Entry.texts, Content.texts]

/-- What stays of the texts of one message where its tool uses are taken out. -/
theorem texts_stripMessage {pre pre' rest : List (Entry φ)}
    (hpre : pre.map Entry.kind = pre'.map Entry.kind) (msg : Entry φ) :
    (if Dropped pre msg rest then [] else msg.texts).Sublist
      (if Dropped pre' (stripMessage msg rest.head?) (stripDanglingAnthropicToolUses rest) then []
        else (stripMessage msg rest.head?).texts) := by
  by_cases hdropped : Dropped pre msg rest
  · rw [if_pos hdropped]
    exact List.nil_sublist _
  rw [if_neg hdropped]
  have hjoins := joins_of_kinds hpre (kind_stripMessage msg rest.head?).symm
  by_cases hsame : stripMessage msg rest.head? = msg
  · rw [hsame] at hjoins ⊢
    rw [if_neg]
    rwa [Dropped, ← hjoins, head_role_strip]
  · cases msg with
    | value => exact List.nil_sublist _
    | message current =>
      cases hnext : rest.head? with
      | none => simp [hnext, stripMessage] at hsame
      | some next =>
        by_cases hboth : (Entry.message current).role? = some "assistant" ∧
            next.role? = some "user"
        · have hstring : (Entry.message current).isString = false := by
            by_contra hstring
            refine hdropped ⟨by simpa using hstring, .inr ⟨.inr hboth.1, ?_⟩⟩
            rw [hnext]
            exact hboth.2
          have hstripped : (stripMessage (.message current) (some next)).texts =
              blockTexts (filteredContent (validToolUseIds next) current.content.array) := by
            rw [stripMessage, if_pos hboth]
            exact if_pos (.inr hboth.1)
          have hkeeps : (stripMessage (.message current) (some next)).isString = false := by
            rw [stripMessage, if_pos hboth]
            rfl
          rw [if_neg (fun h => absurd h.1 (by simp [hkeeps])), hstripped]
          exact (texts_of_not_string hstring).trans (blockTexts_filteredContent _ _)
        · simp [hnext, stripMessage, hboth] at hsame

theorem keptTexts_strip {pre pre' : List (Entry φ)}
    (hpre : pre.map Entry.kind = pre'.map Entry.kind) (messages : List (Entry φ)) :
    (keptTexts pre messages).Sublist
      (keptTexts pre' (stripDanglingAnthropicToolUses messages)) := by
  induction messages generalizing pre pre' with
  | nil => exact List.nil_sublist _
  | cons msg rest ih =>
    refine (texts_stripMessage hpre msg).append (ih ?_)
    simp [hpre, kind_stripMessage]

-- ---
-- Merging
-- ---

/-- The texts of the last message so far, as far as the next one leaves them. -/
def lastTexts (last : Entry φ) (rest : List (Entry φ)) : List String :=
  if last.isString = true ∧ IsUser last ∧ rest.head?.bind Entry.role? = some "user" then []
  else last.texts

theorem lastTexts_sublist (last : Entry φ) (rest : List (Entry φ)) :
    (lastTexts last rest).Sublist last.texts := by
  unfold lastTexts
  split
  · exact List.nil_sublist _
  · exact List.Sublist.refl _

theorem lastTexts_merge (previous current : AgentMessage φ) (rest : List (Entry φ)) :
    lastTexts (.message (mergeConsecutiveUserTurns previous current)) rest =
      (Entry.message (mergeConsecutiveUserTurns previous current)).texts :=
  if_neg fun h => Bool.false_ne_true h.1

theorem dropped_sublist (pre rest : List (Entry φ)) (msg : Entry φ) :
    (if Dropped pre msg rest then [] else msg.texts).Sublist (lastTexts msg rest) := by
  by_cases h : Dropped pre msg rest
  · rw [if_pos h]
    exact List.nil_sublist _
  · rw [if_neg h, lastTexts, if_neg]
    rintro ⟨hstring, huser, hnext⟩
    exact h ⟨hstring, .inr ⟨.inl huser, hnext⟩⟩

theorem texts_of_roleless {e : Entry φ} (h : ¬ IsUser e) (h' : ¬ IsAssistant e) :
    e.texts = [] := by
  cases e with
  | value => rfl
  | message msg => exact if_neg (by simp [h, h'])

/-- The texts of a message merged into the one before it, and those of that one. -/
theorem texts_joined {pre init rest : List (Entry φ)} {s : Merging φ}
    {previous current : AgentMessage φ} (h : Follows pre s)
    (hinit : s.result = init ++ [.message previous])
    (hjoins : Joins pre (Entry.message current)) :
    (lastTexts (Entry.message previous) (.message current :: rest) ++
        (if Dropped pre (.message current) rest then [] else (Entry.message current).texts)).Sublist
      (Entry.message (mergeConsecutiveUserTurns previous current)).texts := by
  have htexts : (Entry.message (mergeConsecutiveUserTurns previous current)).texts =
      blockTexts previous.content.array ++ blockTexts current.content.array := by
    rw [Entry.texts, if_pos (.inl hjoins.1)]
    exact List.filterMap_append
  rw [htexts]
  refine List.Sublist.append ?_ ?_
  · by_cases hprevious : IsUser (Entry.message previous)
    · by_cases hstring : (Entry.message previous).isString = true
      · rw [lastTexts, if_pos ⟨hstring, hprevious, hjoins.1⟩]
        exact List.nil_sublist _
      · exact (lastTexts_sublist _ _).trans (texts_of_not_string (by simpa using hstring))
    · obtain ⟨hroleless, -⟩ := h.roleless hinit hjoins hprevious
      have htexts := texts_of_roleless hprevious (by simp [IsAssistant, hroleless.2])
      have := lastTexts_sublist (Entry.message previous) (.message current :: rest)
      rw [htexts] at this
      exact this.trans (List.nil_sublist _)
  · by_cases hstring : (Entry.message current).isString = true
    · rw [if_pos ⟨hstring, .inl hjoins⟩]
      exact List.nil_sublist _
    · rw [if_neg (fun h => hstring h.1)]
      exact texts_of_not_string (by simpa using hstring)

theorem keptTexts_merge (rest pre init : List (Entry φ)) (last : Entry φ) (s : Merging φ)
    (h : Follows pre s) (hresult : s.result = init ++ [last]) :
    (init.flatMap Entry.texts ++ lastTexts last rest ++ keptTexts pre rest).Sublist
      ((rest.foldl (mergeMessage "user" mergeConsecutiveUserTurns) s).result.flatMap
        Entry.texts) := by
  induction rest generalizing pre init last s with
  | nil =>
    rw [List.foldl_nil, hresult, List.flatMap_append, List.flatMap_singleton, keptTexts,
      List.append_nil]
    exact (List.Sublist.refl _).append (lastTexts_sublist last [])
  | cons msg rest ih =>
    rw [List.foldl_cons, keptTexts]
    by_cases hjoins : Joins pre msg
    · obtain ⟨init', previous, current, hinit, rfl, hstep⟩ := mergeMessage_joins h hjoins
      obtain ⟨rfl, hlast⟩ := List.append_inj' (hresult.symm.trans hinit) rfl
      obtain rfl : last = .message previous := by simpa using hlast
      have := ih (pre ++ [.message current]) init _ _ (h.step _) (by rw [hstep])
      refine List.Sublist.trans ?_ this
      rw [← List.append_assoc, List.append_assoc (init.flatMap _)]
      refine List.Sublist.append ?_ (List.Sublist.refl _)
      refine List.Sublist.append (List.Sublist.refl _) ?_
      rw [lastTexts_merge]
      exact texts_joined h hinit hjoins
    · have hstep := mergeMessage_stands h hjoins
      have := ih (pre ++ [msg]) (init ++ [last]) msg _ (h.step _) (by rw [hstep, hresult])
      refine List.Sublist.trans ?_ this
      rw [List.flatMap_append, List.flatMap_singleton, ← List.append_assoc]
      refine List.Sublist.append (List.Sublist.append ?_ (dropped_sublist pre rest msg))
        (List.Sublist.refl _)
      exact (List.Sublist.refl _).append (lastTexts_sublist last _)

theorem keptTexts_merged (messages : List (Entry φ)) :
    (keptTexts [] messages).Sublist ((merged messages).result.flatMap Entry.texts) := by
  cases messages with
  | nil => exact List.nil_sublist _
  | cons msg rest =>
    have hstands : ¬ Joins [] msg := fun hjoins => by cases hjoins.2.1
    have hstart : Follows ([] : List (Entry φ)) ({} : Merging φ) := ⟨rfl, rfl, fun _ => rfl⟩
    have hresult : (mergeMessage "user" mergeConsecutiveUserTurns {} msg).result = [] ++ [msg] := by
      rw [mergeMessage_stands hstart hstands]
    refine List.Sublist.trans ?_ (keptTexts_merge rest _ _ msg _ (hstart.step msg) hresult)
    exact (dropped_sublist [] rest msg).append (List.Sublist.refl _)

-- ---
-- Both passes
-- ---

theorem validateAnthropicTurns_eq (messages : List (Entry φ)) :
    validateAnthropicTurns messages =
      (merged (stripDanglingAnthropicToolUses messages)).result := rfl

theorem usersAroundRoleless_of_kinds {l l' : List (Entry φ)}
    (hkinds : l.map Entry.kind = l'.map Entry.kind) (h : UsersAroundRoleless l) :
    UsersAroundRoleless l' := by
  obtain ⟨pre, u, v, w, post, rfl, hu, hv, hw⟩ := h
  rw [List.map_append, List.map_cons, List.map_cons, List.map_cons] at hkinds
  obtain ⟨pre', rest, rfl, -, hrest⟩ := List.map_eq_append_iff.mp hkinds.symm
  obtain ⟨u', rest, rfl, hu', hrest⟩ := List.map_eq_cons_iff.mp hrest
  obtain ⟨v', rest, rfl, hv', hrest⟩ := List.map_eq_cons_iff.mp hrest
  obtain ⟨w', rest, rfl, hw', hrest⟩ := List.map_eq_cons_iff.mp hrest
  exact ⟨pre', u', v', w', rest, rfl, (isUser_of_kind hu').mpr hu,
    (roleless_of_kind hv').mpr hv, (isUser_of_kind hw').mpr hw⟩

/-- Two user messages stand next to each other exactly where a message without a role
stood directly between them; the tool uses of an assistant message in front of a user
message are answered there; and the texts are said in order, without the dropped ones. -/
theorem validateAnthropicTurns_turns (messages : List (Entry φ)) :
    ((validateAnthropicTurns messages).IsChain NotBothUsers ↔ ¬ UsersAroundRoleless messages) ∧
      (validateAnthropicTurns messages).IsChain AnsweredByNext ∧
      (keptTexts [] messages).Sublist
        ((validateAnthropicTurns messages).flatMap Entry.texts) := by
  have hkinds := kinds_strip messages
  refine ⟨?_, ?_, ?_⟩
  · rw [validateAnthropicTurns_eq, merged_notBothUsers, not_iff_not]
    exact ⟨usersAroundRoleless_of_kinds hkinds, usersAroundRoleless_of_kinds hkinds.symm⟩
  · exact merged_answered (stripped_answered messages)
  · exact (keptTexts_strip rfl messages).trans (keptTexts_merged _)

/-- Every tool use of an assistant message is answered by a user message behind it. -/
def ToolUsesAnswered : List (Entry φ) → Prop
  | [] => True
  | msg :: rest =>
    (IsAssistant msg → ∀ block, some block ∈ msg.array → block.type = .toolUse →
      ∃ userMsg, rest.head? = some userMsg ∧ IsUser userMsg ∧ Answers userMsg msg) ∧
    ToolUsesAnswered rest

/-- What is asked of the turns without any exception. -/
def TurnsValid (messages : List (Entry φ)) : Prop :=
  (validateAnthropicTurns messages).IsChain NotBothUsers ∧
    ToolUsesAnswered (validateAnthropicTurns messages) ∧
    (messages.flatMap Entry.texts).Sublist
      ((validateAnthropicTurns messages).flatMap Entry.texts)

/-- A tool use of the last message stays though nothing answers it. -/
def danglingLast : List (Entry Unit) :=
  [.message { role := some "assistant", rest := (),
              content := .blocks [some { type := .toolUse, id := some "t1" }] }]

def userSays (text : String) : Entry Unit :=
  .message { role := some "user", rest := (), content := .string text }

theorem not_turnsValid :
    ¬ TurnsValid danglingLast ∧ ¬ TurnsValid [userSays "a", userSays "b"] ∧
      ¬ TurnsValid [userSays "a", .message { role := none, rest := (), content := .missing },
        userSays "b"] := by
  refine ⟨?_, ?_, ?_⟩
  · rintro ⟨-, hanswered, -⟩
    obtain ⟨userMsg, hnext, -⟩ := hanswered.1 rfl _ (List.mem_singleton.mpr rfl) rfl
    cases hnext
  · rintro ⟨-, -, htexts⟩
    exact absurd htexts (by decide)
  · rintro ⟨hapart, -⟩
    exact (List.isChain_cons_cons.mp hapart).1 ⟨rfl, rfl⟩

end OpenClaw.Agents.Turns
