import OpenClaw.Js.Text
import OpenClaw.Lib.Marks

/-!
# Messages of the Ollama stream

`buildAssistantMessage` strips leaked thinking from the text of a response: the blocks from a
`<think>` to the next `</think>`, then what is before a `</think>` that is left over.
-/

namespace OpenClaw.Ollama

open Js (Text isSpace trimChars)

-- ---
-- The assistant message
-- ---

def thinkTags : Marks Char where
  first := '<'
  opening := "think>".toList
  closing := "/think>".toList
  notMem_opening := by decide
  notMem_closing := by decide
  opening_apart := by decide
  closing_apart := by decide

structure OllamaToolCall (α : Type u) where
  name : Text
  arguments : α

structure OllamaChatResponse (α : Type u) where
  content : Option Text
  toolCalls : Option (List (OllamaToolCall α))
  promptEvalCount : Option Nat
  evalCount : Option Nat

inductive Content (α : Type u)
  | text (text : Text)
  | toolCall (id name : Text) (arguments : α)

inductive StopReason
  | toolUse
  | stop
  deriving DecidableEq

structure AssistantMessage (α : Type u) where
  content : List (Content α)
  stopReason : StopReason
  input : Nat
  output : Nat

/-- `rawText` without its think blocks, then without what a leftover `</think>` ends: the second
pattern is anchored at the start, so that it matches once. -/
def stripThinking (rawText : Text) : Text :=
  trimChars (thinkTags.afterCloser (thinkTags.strip rawText))

/-- The calls of `randomUUID` are numbered. -/
def buildAssistantMessage (randomUUID : Nat → Text) (response : OllamaChatResponse α) :
    AssistantMessage α :=
  let text := stripThinking (response.content.getD [])
  let toolCalls := response.toolCalls.getD []
  { content := (if text = [] then [] else [.text text]) ++
      toolCalls.mapIdx fun i toolCall =>
        .toolCall ("ollama_call_".toList ++ randomUUID i) toolCall.name toolCall.arguments
    stopReason := if toolCalls = [] then .stop else .toolUse
    input := response.promptEvalCount.getD 0
    output := response.evalCount.getD 0 }

def Content.shown : Content α → Text
  | .text visible => visible
  | .toolCall .. => []

def AssistantMessage.visibleText (message : AssistantMessage α) : Text :=
  message.content.flatMap Content.shown

theorem visibleText_buildAssistantMessage (randomUUID : Nat → Text)
    (response : OllamaChatResponse α) :
    (buildAssistantMessage randomUUID response).visibleText =
      stripThinking (response.content.getD []) := by
  have hcalls (calls : List (OllamaToolCall α)) (randomUUID : Nat → Text) :
      (calls.mapIdx fun i call => Content.toolCall ("ollama_call_".toList ++ randomUUID i)
        call.name call.arguments).flatMap Content.shown = [] := by
    rw [List.flatMap_eq_nil_iff]
    intro content hcontent
    obtain ⟨i, _, rfl⟩ := List.mem_mapIdx.mp hcontent
    rfl
  unfold AssistantMessage.visibleText buildAssistantMessage
  dsimp only
  rw [List.flatMap_append, hcalls, List.append_nil]
  split
  · rename_i hempty
    exact hempty.symm
  · exact List.append_nil _

-- ---
-- Trimming
-- ---

theorem dropWhile_append_cons (hc : isSpace c = false) (before after : Text) :
    ∃ rest, (before ++ c :: after).dropWhile isSpace = rest ++ c :: after := by
  rw [List.dropWhile_append, List.dropWhile_cons_of_neg (by simp [hc])]
  split
  · exact ⟨[], rfl⟩
  · exact ⟨_, rfl⟩

theorem rdropWhile_append_cons (hc : isSpace c = false) (before after : Text) :
    ∃ rest, (before ++ c :: after).rdropWhile isSpace = before ++ c :: rest := by
  obtain ⟨rest, hrest⟩ := dropWhile_append_cons hc after.reverse before.reverse
  refine ⟨rest.reverse, ?_⟩
  rw [List.rdropWhile, List.reverse_append, List.reverse_cons, List.append_assoc,
    List.singleton_append, hrest]
  simp

/-- A word that begins and ends with letters that are no white space stays. -/
theorem infix_trimChars (ha : isSpace a = false) (hc : isSpace c = false)
    (h : a :: (word ++ [c]) <:+: text) : a :: (word ++ [c]) <:+: trimChars text := by
  obtain ⟨before, after, rfl⟩ := h
  obtain ⟨first, hfirst⟩ := dropWhile_append_cons ha before (word ++ c :: after)
  obtain ⟨last, hlast⟩ := rdropWhile_append_cons hc (first ++ a :: word) after
  have htext : before ++ a :: (word ++ [c]) ++ after = before ++ a :: (word ++ c :: after) := by
    simp
  have hsplit : first ++ a :: (word ++ c :: after) = first ++ a :: word ++ c :: after := by simp
  rw [htext, trimChars, hfirst, hsplit, hlast]
  exact ⟨first, last, by simp⟩

theorem infix_of_trimChars (text : Text) : trimChars text <:+: text :=
  (List.rdropWhile_prefix isSpace _).isInfix.trans (List.dropWhile_suffix isSpace).isInfix

/-- The letters that are no white space. -/
def solid (text : Text) : Text := text.filter fun c => !isSpace c

@[simp] theorem solid_append (text text' : Text) :
    solid (text ++ text') = solid text ++ solid text' :=
  List.filter_append ..

theorem solid_eq_nil : solid text = [] ↔ ∀ c ∈ text, isSpace c = true := by
  simp [solid, List.filter_eq_nil_iff]

theorem solid_dropWhile (text : Text) : solid (text.dropWhile isSpace) = solid text := by
  have hspaces : solid (text.takeWhile isSpace) = [] :=
    solid_eq_nil.mpr fun _ hc => List.mem_takeWhile_imp hc
  conv_rhs => rw [← List.takeWhile_append_dropWhile (p := isSpace) (l := text)]
  rw [solid_append, hspaces, List.nil_append]

theorem solid_trimChars (text : Text) : solid (trimChars text) = solid text := by
  have hreverse (text : Text) : solid text.reverse = (solid text).reverse := List.filter_reverse
  rw [trimChars, List.rdropWhile, hreverse, solid_dropWhile, hreverse, List.reverse_reverse,
    solid_dropWhile]

theorem trimChars_append (h : ∀ c ∈ blank, isSpace c = true) (text : Text) :
    trimChars (blank ++ text) = trimChars text := by
  rw [trimChars, List.dropWhile_append_of_pos h]
  rfl

-- ---
-- What is visible
-- ---

theorem closer_trimChars_iff : thinkTags.closer <:+: trimChars text ↔ thinkTags.closer <:+: text :=
  have htag : thinkTags.closer = '<' :: ("/think".toList ++ ['>']) := rfl
  ⟨fun h => h.trans (infix_of_trimChars text),
    fun h => htag ▸ infix_trimChars (by decide) (by decide) (htag ▸ h)⟩

/-- The visible text has no closing tag and is not stripped further. -/
def Settled (randomUUID : Nat → Text) (response : OllamaChatResponse α) (rawText : Text) : Prop :=
  let visible rawText :=
    (buildAssistantMessage randomUUID { response with content := some rawText }).visibleText
  ¬ thinkTags.closer <:+: visible rawText ∧ visible (visible rawText) = visible rawText

theorem settled_iff {randomUUID : Nat → Text} {response : OllamaChatResponse α} :
    Settled randomUUID response rawText ↔
      ∃ out, thinkTags.Outside rawText out ∧ ¬ thinkTags.TwoClosers out := by
  have hcloser : thinkTags.closer <:+: stripThinking rawText ↔
      thinkTags.TwoClosers (thinkTags.strip rawText) :=
    closer_trimChars_iff.trans thinkTags.closer_afterCloser_iff
  simp only [Settled, visibleText_buildAssistantMessage, Option.getD_some, thinkTags.outside_iff,
    exists_eq_left', hcloser, and_iff_left_iff_imp]
  intro htwo
  have hfree : ¬ thinkTags.closer <:+: stripThinking rawText := fun h => htwo (hcloser.mp h)
  conv_lhs =>
    rw [stripThinking, thinkTags.strip_of_not_closer hfree,
      thinkTags.afterCloser_of_absent hfree]
  exact Js.trimChars_trimChars _

/-- Visible segments without tags and closed blocks, of which the first may lack its opening
tag: then the text begins with its body. -/
structure Layout where
  unopened : Option Text
  lead : Text
  blocks : List (Text × Text)
  unopened_closed : ∀ body ∈ unopened, ¬ thinkTags.closer <:+: body
  lead_free : ¬ thinkTags.opener <:+: lead ∧ ¬ thinkTags.closer <:+: lead
  blocks_closed : ∀ block ∈ blocks, ¬ thinkTags.closer <:+: block.1
  blocks_free : ∀ block ∈ blocks,
    ¬ thinkTags.opener <:+: block.2 ∧ ¬ thinkTags.closer <:+: block.2

namespace Layout

def visible (l : Layout) : Text := l.lead ++ l.blocks.flatMap (·.2)

def text (l : Layout) : Text :=
  (l.unopened.elim [] fun body => body ++ thinkTags.closer) ++ (l.lead ++ thinkTags.marked l.blocks)

/-- The visible segments do not spell a closing tag together; where the first block lacks its
opening tag, this and nothing visible before it are asked only if a `<think>` is in its body. -/
def Clean (l : Layout) : Prop :=
  match l.unopened with
  | none => ¬ thinkTags.closer <:+: l.visible
  | some body => ∀ before after, body = before ++ (thinkTags.opener ++ after) →
      ¬ thinkTags.opener <:+: before →
      (∀ c ∈ before, isSpace c = true) ∧ ¬ thinkTags.closer <:+: l.visible

theorem strip_segments (l : Layout) (h : ¬ thinkTags.opener <:+: v) :
    thinkTags.strip (v ++ thinkTags.marked l.blocks) = v ++ l.blocks.flatMap (·.2) :=
  thinkTags.strip_marked h fun block hblock =>
    ⟨l.blocks_closed block hblock, (l.blocks_free block hblock).1⟩

end Layout

theorem solid_closer_ne : solid thinkTags.closer ≠ [] := by decide

theorem trimChars_afterCloser_iff :
    trimChars (thinkTags.afterCloser text) = trimChars text ↔ ¬ thinkTags.closer <:+: text := by
  by_cases h : thinkTags.closer <:+: text
  · refine iff_of_false (fun htrim => ?_) (not_not_intro h)
    obtain ⟨body, rest, rfl, hbody⟩ := thinkTags.exists_first_closer h
    rw [thinkTags.afterCloser_append hbody] at htrim
    have hsolid := congrArg (fun t => (solid t).length) htrim
    simp only [solid_trimChars, solid_append, List.length_append] at hsolid
    have hcloser := List.length_pos_iff.mpr solid_closer_ne
    omega
  · exact iff_of_true (by rw [thinkTags.afterCloser_of_absent h]) h

/-- Text before the segments is taken for visible, unless it is blank. -/
theorem trimChars_afterCloser_append_iff (hp : ¬ thinkTags.closer <:+: before) :
    trimChars (thinkTags.afterCloser (before ++ text)) = trimChars text ↔
      (∀ c ∈ before, isSpace c = true) ∧ ¬ thinkTags.closer <:+: text := by
  by_cases h : thinkTags.closer <:+: before ++ text
  · refine iff_of_false (fun htrim => ?_) ?_
    · obtain ⟨body, rest, hsplit, hbody⟩ := thinkTags.exists_first_closer h
      rw [hsplit, thinkTags.afterCloser_append hbody] at htrim
      have hsolid := congrArg solid htrim
      rw [solid_trimChars, solid_trimChars] at hsolid
      rw [← List.append_assoc] at hsplit
      rcases List.append_eq_append_iff.mp hsplit with ⟨middle, hmiddle, rfl⟩ | ⟨middle, rfl, -⟩
      · have hblank : solid middle = [] := by simpa using hsolid
        rcases List.eq_nil_or_concat' middle with rfl | ⟨shown, c, rfl⟩
        · rw [List.append_nil] at hmiddle
          exact hp ⟨body, [], by rw [hmiddle]; simp⟩
        · have hlast := congrArg List.getLast? hmiddle
          have hc : c = '>' := by simpa [Marks.closer, thinkTags] using hlast.symm
          rw [solid_eq_nil] at hblank
          have hspace := hblank c (by simp)
          rw [hc] at hspace
          cases hspace
      · exact hp ⟨body, middle, rfl⟩
    · rintro ⟨hblank, hfree⟩
      refine hfree (Marks.infix_of_append (fun hfirst => ?_) h)
      cases hblank _ hfirst
  · have hfree : ¬ thinkTags.closer <:+: text := fun hin =>
      h (hin.trans (List.suffix_append _ _).isInfix)
    rw [thinkTags.afterCloser_of_absent h, and_iff_left hfree]
    constructor
    · intro htrim
      have hsolid := congrArg solid htrim
      rw [solid_trimChars, solid_trimChars, solid_append] at hsolid
      exact solid_eq_nil.mp (by simpa using hsolid)
    · exact fun hblank => trimChars_append hblank text

theorem Layout.stripThinking_iff (l : Layout) :
    stripThinking l.text = trimChars l.visible ↔ l.Clean := by
  unfold Layout.Clean
  cases hunopened : l.unopened with
  | none =>
    have htext : l.text = l.lead ++ thinkTags.marked l.blocks := by
      rw [Layout.text, hunopened]
      rfl
    rw [stripThinking, htext, l.strip_segments l.lead_free.1]
    exact trimChars_afterCloser_iff
  | some body =>
    have hbody : ¬ thinkTags.closer <:+: body := l.unopened_closed body hunopened
    have htext : l.text = body ++ (thinkTags.closer ++ (l.lead ++ thinkTags.marked l.blocks)) := by
      rw [Layout.text, hunopened]
      exact List.append_assoc ..
    dsimp only
    by_cases hopener : thinkTags.opener <:+: body
    · -- the body's own opening tag is taken for the block's
      obtain ⟨before, after, rfl, hbefore⟩ := thinkTags.exists_first_opener hopener
      have hafter : ¬ thinkTags.closer <:+: after := fun h =>
        hbody (h.trans ((List.suffix_append _ _).trans (List.suffix_append _ _)).isInfix)
      have hstrip : thinkTags.strip l.text = before ++ l.visible := by
        rw [htext, List.append_assoc, List.append_assoc,
          thinkTags.strip_append hbefore (by simp [Marks.opener]), thinkTags.strip_block hafter,
          l.strip_segments l.lead_free.1]
        rfl
      rw [stripThinking, hstrip,
        trimChars_afterCloser_append_iff fun h => hbody (h.trans (List.prefix_append _ _).isInfix)]
      constructor
      · intro h other rest heq hother
        have hle := Marks.prefix_of_first thinkTags.notMem_opening hother heq.symm
        have hge := Marks.prefix_of_first thinkTags.notMem_opening hbefore heq
        rw [hle.eq_of_length (le_antisymm hle.length_le hge.length_le)]
        exact h
      · exact fun h => h before after rfl hbefore
    · have hsegment : ¬ thinkTags.opener <:+: body ++ (thinkTags.closer ++ l.lead) := fun h =>
        (Marks.infix_append_cons thinkTags.notMem_opening h).elim hopener
          (thinkTags.not_opener_closer l.lead_free.1)
      have hstrip : thinkTags.strip l.text = body ++ (thinkTags.closer ++ l.visible) := by
        rw [htext, ← List.append_assoc thinkTags.closer, ← List.append_assoc body,
          l.strip_segments hsegment, List.append_assoc, List.append_assoc]
        rfl
      rw [stripThinking, hstrip, thinkTags.afterCloser_append hbody]
      refine iff_of_true rfl fun before after heq => absurd ?_ hopener
      exact ⟨before, after, by rw [heq, List.append_assoc]⟩

/-- Stripping settles just the texts with at most one closing tag outside of their blocks, and
leaves just the visible segments of the layouts that are clean. -/
theorem buildAssistantMessage_strips_iff (randomUUID : Nat → Text)
    (response : OllamaChatResponse α) :
    (∀ rawText, Settled randomUUID response rawText ↔
      ∃ out, thinkTags.Outside rawText out ∧ ¬ thinkTags.TwoClosers out) ∧
    ∀ l : Layout,
      (buildAssistantMessage randomUUID { response with content := some l.text }).visibleText =
        trimChars l.visible ↔ l.Clean := by
  refine ⟨fun _ => settled_iff, fun l => ?_⟩
  rw [visibleText_buildAssistantMessage]
  exact l.stripThinking_iff

def leftover : OllamaChatResponse Unit :=
  ⟨some "a</think>b</think>c".toList, none, none, none⟩

/-- Only what is before the first of two leftover closing tags is removed. -/
theorem not_settled_leftover :
    (buildAssistantMessage (fun _ => []) leftover).visibleText = "b</think>c".toList ∧
      ¬ Settled (fun _ => []) leftover "a</think>b</think>c".toList := by
  have hvisible :
      (buildAssistantMessage (fun _ => []) leftover).visibleText = "b</think>c".toList := by
    decide
  refine ⟨hvisible, fun h => h.1 ?_⟩
  change thinkTags.closer <:+: (buildAssistantMessage (fun _ => []) leftover).visibleText
  rw [hvisible]
  exact ⟨['b'], ['c'], rfl⟩

end OpenClaw.Ollama
