import Mathlib.Data.List.Perm.Subperm
import Mathlib.Data.List.ReduceOption
import OpenClaw.Agents.TranscriptRepair.Replay

/-!
# Repairing a repaired transcript

Nothing is lost, and the second pass leaves the transcript as it is, unless a synthetic
result has a name the second pass would clean.
-/

namespace OpenClaw.Agents

open Js (Json Number)
open Groups

-- ---
-- A run without a change
-- ---

section
variable {now : Nat → Number} {policy : ErroredAssistantResultPolicy} {a : AssistantMessage}
  {st : RepairState} {span : List Message}

/-- A clock that is never read does not matter. -/
theorem pushResults_clock {found : List (String × ToolResultMessage)} (now now' : Nat → Number)
    {calls : List ToolCallLike} (hall : ∀ call ∈ calls, (found.lookup call.id).isSome)
    (st : RepairState) : pushResults now' found st calls = pushResults now found st calls := by
  induction calls generalizing st with
  | nil => rfl
  | cons call calls ih =>
    obtain ⟨hcall, hcalls⟩ := List.forall_mem_cons.mp hall
    obtain ⟨r, hr⟩ := Option.isSome_iff_exists.mp hcall
    simp only [pushResults, hr]
    exact ih hcalls _

/-- A turn that reports no change had a result for each of its calls, unless it failed. -/
theorem repairGroup_found (h : (repairGroup now policy st (.assistant a, span)).changed = false)
    (hok : isErroredTurn a = false) : ∀ call ∈ extractToolCallsFromAssistant a,
      ((scanSpan (extractToolCallsFromAssistant a) st.seenToolResultIds span).spanResultsById.lookup
        call.id).isSome := by
  intro call hcall
  have hne : ¬ (extractToolCallsFromAssistant a).isEmpty := by
    simpa using List.ne_nil_of_mem hcall
  simp only [repairGroup, if_neg hne] at h
  rw [repairTurn_ok now policy hok] at h
  exact pushResults_unchanged now scanSpan_keyed _
    (fun call hcall => callId_ne (List.mem_map_of_mem hcall)) _ h call hcall

theorem repairGroup_clock (now' : Nat → Number)
    (h : (repairGroup now policy st (.assistant a, span)).changed = false) :
    repairGroup now' policy st (.assistant a, span) = repairGroup now policy st (.assistant a, span) := by
  cases herr : isErroredTurn a with
  | true => simp [repairGroup, repairTurn, herr]
  | false =>
    have hclock := pushResults_clock now now' (repairGroup_found h herr)
    simp only [repairGroup]
    split
    · rfl
    · rw [repairTurn_ok now policy herr, repairTurn_ok now' policy herr]
      simp only [hclock]

theorem foldl_clock (now' : Nat → Number) (hgs : Proper Message.isAssistant gs)
    (h : (gs.foldl (repairGroup now policy) st).changed = false) :
    gs.foldl (repairGroup now' policy) st = gs.foldl (repairGroup now policy) st := by
  induction gs generalizing st with
  | nil => rfl
  | cons g gs ih =>
    have hrest : Proper Message.isAssistant gs := fun x hx => hgs x (List.mem_cons_of_mem _ hx)
    obtain ⟨m, span⟩ := g
    cases m with
    | toolResult r => cases (hgs _ List.mem_cons_self).1
    | other v => cases (hgs _ List.mem_cons_self).1
    | assistant a =>
      obtain ⟨outs, hsteps⟩ := foldl_turnSteps now policy hrest
        (repairGroup now policy st (.assistant a, span))
      have hone : (repairGroup now policy st (.assistant a, span)).changed = false :=
        Bool.eq_false_iff.mpr fun hc => by
          rw [List.foldl_cons, hsteps.changed hc] at h
          cases h
      rw [List.foldl_cons, List.foldl_cons, repairGroup_clock now' hone]
      exact ih hrest h

theorem repairFrom_eq (now : Nat → Number) (policy : ErroredAssistantResultPolicy)
    (messages : List Message) : repairFrom now policy 0 {} messages =
      (turns messages).foldl (repairGroup now policy)
        (repairLoose {} (lead Message.isAssistant messages)) := by
  rw [turns, ← repairFrom_flatten (groups_proper messages), ← repairFrom_loose
    (fun m hm => not_isHead_of_mem_lead hm), lead_append_flatten]

theorem repairFrom_moved (h : (repairFrom now policy 0 {} messages).moved = true) :
    (repairFrom now policy 0 {} messages).changed = true := by
  obtain ⟨st₀, outs, hloose, hsteps⟩ := repairFrom_turns now policy messages
  refine hsteps.moved (fun hmoved => ?_) h
  rw [hloose.moved] at hmoved
  cases hmoved

end

-- ---
-- The repaired transcript
-- ---

section
variable {now : Nat → Number} {messages : List Message} {policy? : Option ErroredAssistantResultPolicy}

/-- A pass without a change gives the transcript back, whatever the clock. -/
theorem repaired_of_unchanged
    (h : (repairFrom now (policy?.getD .preserve) 0 {} messages).changed = false) (now' : Nat → Number) :
    (repairToolUseResultPairing now' messages policy?).messages = messages := by
  have hclock : repairFrom now' (policy?.getD .preserve) 0 {} messages =
      repairFrom now (policy?.getD .preserve) 0 {} messages := by
    rw [repairFrom_eq] at h
    rw [repairFrom_eq, repairFrom_eq]
    exact foldl_clock now' (groups_proper messages) h
  have hmoved : (repairFrom now (policy?.getD .preserve) 0 {} messages).moved = false :=
    Bool.eq_false_iff.mpr fun hm => by
      rw [repairFrom_moved hm] at h
      cases h
  simp [repairToolUseResultPairing, hclock, h, hmoved]

theorem repairFrom_passes (now : Nat → Number) (policy : ErroredAssistantResultPolicy)
    (messages : List Message) :
    ∃ outs seen', Passes now policy [] (turns messages) outs seen' ∧
      (repairFrom now policy 0 {} messages).out =
        (lead Message.isAssistant messages).filter notToolResult ++ flatten outs := by
  have hloose := repairLoose_step (lead Message.isAssistant messages) {}
  have hproper : Proper Message.isAssistant (turns messages) := groups_proper messages
  obtain ⟨outs, hpasses, hout⟩ := foldl_passes now policy hproper
    (repairLoose {} (lead Message.isAssistant messages))
  rw [hloose.seen] at hpasses
  rw [← repairFrom_eq, hloose.out, List.nil_append] at hout
  exact ⟨outs, _, hpasses, hout⟩

theorem rest_rest (l : List Message) :
    (l.filter notToolResult).filter notToolResult = l.filter notToolResult := filter_rest [] l

theorem Passes.proper {seen seen' : List String} (h : Passes now policy seen gs outs seen')
    (hgs : Proper Message.isAssistant gs) : Proper Message.isAssistant outs := by
  induction h with
  | nil => exact hgs
  | @cons _ _ _ a span rs _ _ _ _ _ ih =>
    intro g hg
    rcases List.mem_cons.mp hg with rfl | hg
    · refine ⟨rfl, fun m hm => ?_⟩
      rcases List.mem_append.mp hm with hm | hm
      · obtain ⟨r, -, rfl⟩ := List.mem_map.mp hm
        rfl
      · exact (hgs _ List.mem_cons_self).2 m (List.mem_filter.mp hm).1
    · exact ih (fun x hx => hgs x (List.mem_cons_of_mem _ hx)) g hg

/-- What a pass puts out: its turns, and what stands before them. -/
theorem repaired_cases (now : Nat → Number) (messages : List Message)
    (policy? : Option ErroredAssistantResultPolicy) :
    let out := (repairToolUseResultPairing now messages policy?).messages
    (∀ now', (repairToolUseResultPairing now' messages policy?).messages = messages) ∧
        (repairFrom now (policy?.getD .preserve) 0 {} messages).changed = false ∨
      (repairFrom now (policy?.getD .preserve) 0 {} messages).changed = true ∧
      ∃ outs seen', Passes now (policy?.getD .preserve) [] (turns messages) outs seen' ∧
        out = (lead Message.isAssistant messages).filter notToolResult ++ flatten outs ∧
        lead Message.isAssistant out = (lead Message.isAssistant messages).filter notToolResult ∧
        turns out = outs := by
  intro out
  cases hchanged : (repairFrom now (policy?.getD .preserve) 0 {} messages).changed with
  | false => exact .inl ⟨repaired_of_unchanged hchanged, rfl⟩
  | true =>
    obtain ⟨outs, seen', hpasses, hout⟩ := repairFrom_passes now (policy?.getD .preserve) messages
    have hproper := hpasses.proper (groups_proper messages)
    have hrest : ∀ m ∈ (lead Message.isAssistant messages).filter notToolResult,
        m.isAssistant = false :=
      fun m hm => not_isHead_of_mem_lead (List.mem_filter.mp hm).1
    have hmessages : out =
        (lead Message.isAssistant messages).filter notToolResult ++ flatten outs := by
      simp only [out, repairToolUseResultPairing]
      rw [hchanged, Bool.true_or, if_pos rfl, hout]
    refine .inr ⟨rfl, outs, seen', hpasses, hmessages, ?_, ?_⟩
    · rw [hmessages]
      exact lead_lead_append hrest hproper
    · rw [hmessages]
      exact groups_lead_append hrest hproper

/-- The synthetic results of a transcript have names a second pass leaves alone. -/
def NamesKept (policy : ErroredAssistantResultPolicy) (messages : List Message) : Prop :=
  ∀ pre a span post, turns messages = pre ++ (.assistant a, span) :: post →
    NamesClean (fun id => ∃ turn ∈ pre, answers policy turn id) a span

theorem repaired_again (hnames : NamesKept (policy?.getD .preserve) messages) (now' : Nat → Number) :
    let out := (repairToolUseResultPairing now messages policy?).messages
    (repairToolUseResultPairing now' out policy?).messages = out := by
  intro out
  obtain ⟨hsame, -⟩ | ⟨-, outs, seen', hpasses, hout, hlead, hturns⟩ :=
    repaired_cases now messages policy?
  · rw [show out = messages from hsame now]
    exact hsame now'
  · obtain ⟨outs', seen'', hpasses', hout'⟩ := repairFrom_passes now' (policy?.getD .preserve) out
    rw [hturns] at hpasses'
    have hsame : outs' = outs := hpasses.again hpasses' fun pre a span post h =>
      (hnames pre a span post h).congr (by simp)
    rw [hlead, rest_rest, hsame, ← hout] at hout'
    simp only [repairToolUseResultPairing, hout']
    split <;> rfl

end

-- ---
-- Nothing is lost
-- ---

def toolResults (messages : List Message) : List ToolResultMessage :=
  messages.filterMap fun
    | .toolResult r => some r
    | _ => none

/-- A result of the output is one of the input, up to its tool name, or a synthetic one. -/
inductive Origin : Option ToolResultMessage → ToolResultMessage → Prop
  | real {m r : ToolResultMessage} (h : SameButName m r) : Origin (some m) r
  | synthetic (now : Number) (id : String) (name : Option String) :
    Origin none (makeMissingToolResult now id name)

/-- A turn that failed has only results of its own. -/
def NoneSynthetic (turn turn' : Message × List Message) : Prop :=
  turn'.1 = turn.1 ∧ ∀ a, turn.1 = .assistant a → isErroredTurn a = true →
    ∀ r, .toolResult r ∈ turn'.2 → ∃ m, .toolResult m ∈ turn.2 ∧ SameButName m r

/-- The messages that are no results stay in order, no result appears twice, and none is made
up for a turn that failed. -/
structure Lossless (messages out : List Message) : Prop where
  others : out.filter notToolResult = messages.filter notToolResult
  results : ∃ origins, List.Forall₂ Origin origins (toolResults out) ∧
    origins.reduceOption.Subperm (toolResults messages)
  errored : List.Forall₂ NoneSynthetic (turns messages) (turns out)

section
variable {now : Nat → Number} {messages : List Message} {policy : ErroredAssistantResultPolicy}
  {a : AssistantMessage} {seen seen' : List String} {span : List Message}

@[simp] theorem toolResults_append (l l' : List Message) :
    toolResults (l ++ l') = toolResults l ++ toolResults l' := List.filterMap_append

@[simp] theorem toolResults_assistant (l : List Message) :
    toolResults (.assistant a :: l) = toolResults l := rfl

@[simp] theorem toolResults_rest (l : List Message) : toolResults (l.filter notToolResult) = [] :=
  List.filterMap_eq_nil_iff.mpr fun m hm => by
    cases m with
    | toolResult r => exact absurd hm not_mem_rest
    | assistant b => rfl
    | other v => rfl

@[simp] theorem toolResults_map (rs : List ToolResultMessage) :
    toolResults (rs.map .toolResult) = rs := by
  induction rs with
  | nil => rfl
  | cons r rs ih => exact congrArg (r :: ·) ih

theorem mem_toolResults {l : List Message} : r ∈ toolResults l ↔ .toolResult r ∈ l := by
  simp only [toolResults, List.mem_filterMap]
  constructor
  · rintro ⟨m, hm, hr⟩
    cases m with
    | toolResult r' =>
      obtain rfl := Option.some.inj hr
      exact hm
    | assistant b => cases hr
    | other v => cases hr
  · exact fun h => ⟨_, h, rfl⟩

/-- Each result of a turn is another result of it up to its name, or synthetic. -/
theorem Pushes.origins {gives : ToolCallLike → ToolResultMessage → Prop} (span : List Message)
    (h : Pushes gives seen calls rs seen')
    (hgives : ∀ call r, gives call r → (∃ m ∈ resultsFor call.id span, SameButName m r) ∨
      ∃ t name, r = makeMissingToolResult t call.id name) :
    ∃ origins, List.Forall₂ Origin origins rs ∧
      (∀ m ∈ origins.reduceOption, .toolResult m ∈ span ∧
        ∃ id, id ∉ seen ∧ extractToolResultId m = some id) ∧
      (origins.reduceOption.map extractToolResultId).Nodup := by
  induction h with
  | nil => exact ⟨[], .nil, by simp, by simp⟩
  | skip _ _ ih => exact ih
  | @give seen _ call _ r rs hnew hr _ ih =>
    obtain ⟨origins, hall, hmem, hnodup⟩ := ih
    have hlater (m) (hm : m ∈ origins.reduceOption) : .toolResult m ∈ span ∧
        ∃ id, id ∉ seen ∧ extractToolResultId m = some id := by
      obtain ⟨hspan, id, hid, heq⟩ := hmem m hm
      exact ⟨hspan, id, fun h => hid (List.mem_append_left _ h), heq⟩
    obtain ⟨m, hm, hsame⟩ | ⟨t, name, rfl⟩ := hgives call r hr
    · obtain ⟨hspan, hid⟩ := mem_resultsFor.mp hm
      refine ⟨some m :: origins, .cons (.real hsame) hall, ?_, ?_⟩
      · rw [List.reduceOption_cons_of_some]
        exact List.forall_mem_cons.mpr ⟨⟨hspan, call.id, hnew, hid⟩, hlater⟩
      · rw [List.reduceOption_cons_of_some, List.map_cons, List.nodup_cons]
        refine ⟨fun h => ?_, hnodup⟩
        obtain ⟨m', hm', heq⟩ := List.mem_map.mp h
        obtain ⟨-, id, hid', heq'⟩ := hmem m' hm'
        obtain rfl : call.id = id := Option.some.inj (hid.symm.trans (heq.symm.trans heq'))
        exact hid' (by simp)
    · refine ⟨none :: origins, .cons (.synthetic t call.id name) hall, ?_, ?_⟩
      · rw [List.reduceOption_cons_of_none]
        exact hlater
      · rw [List.reduceOption_cons_of_none]
        exact hnodup

theorem Passes.lossless (h : Passes now policy seen gs outs seen') :
    (flatten outs).filter notToolResult = (flatten gs).filter notToolResult ∧
    (∃ origins, List.Forall₂ Origin origins (toolResults (flatten outs)) ∧
      origins.reduceOption.Subperm (toolResults (flatten gs))) ∧
    List.Forall₂ NoneSynthetic gs outs := by
  induction h with
  | nil => exact ⟨rfl, ⟨[], .nil, List.nil_subperm⟩, .nil⟩
  | @cons seen _ _ a span rs gs outs hpushes _ _ ih =>
    obtain ⟨hothers, ⟨origins, hall, hsub⟩, herrored⟩ := ih
    refine ⟨?_, ?_, .cons ⟨rfl, fun b hb herr r hr => ?_⟩ herrored⟩
    · rw [flatten_cons, flatten_cons, List.filter_cons, List.filter_cons,
        List.filter_append (rs.map _ ++ _), List.filter_append span, filter_rest, hothers]
    · obtain ⟨own, hown, hmem, hnodup⟩ := hpushes.origins span fun call r hr => by
        obtain ⟨m, hm, rfl⟩ | ⟨-, -, t, rfl⟩ := turnGives_cases hr
        · exact .inl ⟨m, hm, normalizeToolResultName_sameButName m _⟩
        · exact .inr ⟨_, _, rfl⟩
      have howned : own.reduceOption.Subperm (toolResults span) :=
        (List.Nodup.of_map _ hnodup).subperm fun m hm => mem_toolResults.mpr (hmem m hm).1
      refine ⟨own ++ origins, ?_, ?_⟩
      · simpa using List.rel_append hown hall
      · rw [List.reduceOption_append]
        simpa using howned.append hsub
    · cases hb
      have hgives := turnGives_byId now policy a seen span
      obtain ⟨call, -, -, -, hr⟩ := hpushes.first hgives r (mem_results_append_rest hr)
      obtain ⟨m, hm, rfl⟩ | ⟨hok, -⟩ := turnGives_cases hr
      · exact ⟨m, (mem_resultsFor.mp hm).1, normalizeToolResultName_sameButName m _⟩
      · rw [herr] at hok
        cases hok

theorem Lossless.refl (messages : List Message) : Lossless messages messages where
  others := rfl
  results := by
    refine ⟨(toolResults messages).map some, ?_, ?_⟩
    · rw [List.forall₂_map_left_iff]
      exact List.forall₂_same.mpr fun r _ => .real rfl
    · have hsome : ((toolResults messages).map some).reduceOption = toolResults messages := by
        simp [List.reduceOption, List.filterMap_map]
      rw [hsome]
  errored := List.forall₂_same.mpr fun turn _ => ⟨rfl, fun _ _ _ r hr => ⟨r, hr, rfl⟩⟩

theorem repaired_lossless (now : Nat → Number) (messages : List Message)
    (policy? : Option ErroredAssistantResultPolicy) :
    Lossless messages (repairToolUseResultPairing now messages policy?).messages := by
  obtain ⟨hsame, -⟩ | ⟨-, outs, seen', hpasses, hout, -, hturns⟩ :=
    repaired_cases now messages policy?
  · rw [hsame now]
    exact .refl messages
  · obtain ⟨hothers, ⟨origins, hall, hsub⟩, herrored⟩ := hpasses.lossless
    have hsplit : lead Message.isAssistant messages ++ flatten (turns messages) = messages :=
      lead_append_flatten messages
    refine ⟨?_, ⟨origins, ?_, ?_⟩, ?_⟩
    · rw [hout, List.filter_append, hothers, rest_rest, ← List.filter_append, hsplit]
    · rw [hout, toolResults_append, toolResults_rest]
      exact hall
    · refine hsub.trans ?_
      conv => rhs; rw [← hsplit, toolResults_append]
      exact (List.sublist_append_right _ _).subperm
    · rw [hturns]
      exact herrored

end

-- ---
-- When the second pass changes nothing
-- ---

section
variable {now : Nat → Number} {messages : List Message} {policy? : Option ErroredAssistantResultPolicy}

/-- A pass that reports no change made no synthetic result. -/
theorem namesKept_of_unchanged
    (h : (repairFrom now (policy?.getD .preserve) 0 {} messages).changed = false) :
    NamesKept (policy?.getD .preserve) messages := by
  intro pre a span post hturns hok call hfirst _ hnone
  have hproper : Proper Message.isAssistant (turns messages) := groups_proper messages
  rw [hturns] at hproper
  rw [repairFrom_eq, hturns, List.foldl_append, List.foldl_cons] at h
  obtain ⟨_, hsteps⟩ := foldl_turnSteps now (policy?.getD .preserve)
    (fun g hg => hproper g (List.mem_append_right _ (List.mem_cons_of_mem _ hg)))
    (repairGroup now (policy?.getD .preserve) (pre.foldl (repairGroup now (policy?.getD .preserve))
      (repairLoose {} (lead Message.isAssistant messages))) (.assistant a, span))
  have hcall : call ∈ extractToolCallsFromAssistant a := List.mem_of_find?_eq_some hfirst
  have hone : (repairGroup now (policy?.getD .preserve)
      (pre.foldl (repairGroup now (policy?.getD .preserve))
        (repairLoose {} (lead Message.isAssistant messages))) (.assistant a, span)).changed = false :=
    Bool.eq_false_iff.mpr fun hc => by
      rw [hsteps.changed hc] at h
      cases h
  have hfound := repairGroup_found hone hok call hcall
  obtain ⟨r, hr⟩ := Option.isSome_iff_exists.mp hfound
  obtain ⟨-, -, m, hm, -⟩ := scanSpan_real hr
  rw [hnone] at hm
  cases hm

/-- A synthetic result whose name is not clean is changed by the second pass. -/
theorem names_of_again {now' : Nat → Number}
    (hagain : let out := (repairToolUseResultPairing now messages policy?).messages
      (repairToolUseResultPairing now' out policy?).messages = out) :
    NamesKept (policy?.getD .preserve) messages := by
  obtain ⟨-, hchanged⟩ | ⟨-, outs, seen', hpasses, -, -, hturns⟩ :=
    repaired_cases now messages policy?
  · exact namesKept_of_unchanged hchanged
  intro pre a span post h hok call hfirst hnew hnone
  rw [h] at hpasses
  obtain ⟨pre', rs, post', seen₁, seen₂, hout, hlen, hpushes, hseen, hearlier⟩ := hpasses.split
  have hgives := turnGives_byId now (policy?.getD .preserve) a seen₁ span
  have hcall : call ∈ extractToolCallsFromAssistant a := List.mem_of_find?_eq_some hfirst
  have hnotSeen : call.id ∉ seen₁ := fun hmem => hnew (by simpa using (hseen call.id).mp hmem)
  obtain ⟨r, hr, hgiven⟩ := hpushes.given hfirst hnotSeen (turnGives_ok hok)
  have hid := hgives.id call hcall r hgiven
  have hnodup := hpushes.ids_nodup hgives
  obtain ⟨m, hm, -⟩ | ⟨-, -, t, rfl⟩ := turnGives_cases hgiven
  · rw [hnone] at hm
    cases hm
  -- the second pass keeps the result in its turn, with its name cleaned
  obtain ⟨pre'', span'', post'', hturns'', hlen'', hmem⟩ := repaired_kept now' policy?
    (hturns.trans hout) (List.mem_map_of_mem hcall)
    (fun turn hturn hanswers => hnew (hearlier call.id ⟨turn, hturn, hanswers⟩))
    (fun herr => by rw [hok] at herr; cases herr)
    ((head?_resultsFor hnodup).mpr ⟨hr, hid⟩)
  rw [hagain, hturns, hout] at hturns''
  obtain ⟨-, hturn⟩ := List.append_inj hturns'' hlen''.symm
  obtain ⟨hspan, -⟩ := List.cons.inj hturn
  obtain rfl := congrArg Prod.snd hspan
  have hmem' := mem_results_append_rest hmem
  have hsame := List.inj_on_of_nodup_map hnodup hmem' hr (normalizeToolResultName_id _ _)
  exact normalizeToolResultName_missing.mp hsame

/-- A second pass, at any later time, gives back what the first one left, and nothing is lost,
exactly if every synthetic result is for a call with no name or a clean one. The name of a
synthetic result is not trimmed when it is made, and is on the next pass. -/
theorem repairToolUseResultPairing_idempotent_iff (now : Nat → Number) (messages : List Message)
    (policy? : Option ErroredAssistantResultPolicy) :
    let out := (repairToolUseResultPairing now messages policy?).messages
    (∀ now', (repairToolUseResultPairing now' out policy?).messages = out) ∧ Lossless messages out ↔
      NamesKept (policy?.getD .preserve) messages := by
  intro out
  constructor
  · rintro ⟨hagain, -⟩
    exact names_of_again (hagain now)
  · exact fun hnames => ⟨repaired_again hnames, repaired_lossless now messages policy?⟩

end

section

def spacedCall : AssistantMessage where
  content := some [.object (some (.str "toolCall")) (some (.str "call_1")) (some (.str " read ")) []]
  stopReason := some (.str "toolUse")
  rest := []

/-- The synthetic result of a call named " read " is named " read ", and "read" a pass later. -/
theorem not_repairToolUseResultPairing_idempotent :
    ¬ ∀ now messages policy?,
      let out := (repairToolUseResultPairing now messages policy?).messages
      (∀ now', (repairToolUseResultPairing now' out policy?).messages = out) ∧
        Lossless messages out := by
  intro h
  obtain ⟨hagain, -⟩ := h (fun _ => .fin 0) [.assistant spacedCall] none
  have := names_of_again (hagain fun _ => .fin 0) [] spacedCall [] [] rfl rfl
    ⟨"call_1", some " read "⟩ rfl (by simp) rfl " read " rfl
  exact absurd this.2 (by decide)

end

end OpenClaw.Agents
