import Mathlib.Data.List.Basic

/-!
# Requests and replies in a log

A log of turns, each of which makes requests, and of replies. A log is answered
when every request has its reply before the next turn; what is not answered at
its end is still open.
-/

namespace OpenClaw.Ledger

inductive Entry (α : Type u) where
  | turn (requests : List α)
  | reply (target : Option α)
  deriving DecidableEq

def Entry.isReply : Entry α → Bool
  | .reply _ => true
  | .turn _ => false

/-- Every request is answered before the next turn. -/
def Answered (log : List (Entry α)) : Prop :=
  ∀ pre ids run ids' post, log = pre ++ .turn ids :: (run ++ .turn ids' :: post) →
    (∀ e ∈ run, e.isReply = true) → ∀ id ∈ ids, .reply (some id) ∈ run

/-- A turn requests this, and no reply follows. -/
def Open (log : List (Entry α)) (id : α) : Prop :=
  ∃ pre ids post, log = pre ++ .turn ids :: post ∧ id ∈ ids ∧ .reply (some id) ∉ post

variable {log : List (Entry α)} {id : α}

theorem answered_nil : Answered ([] : List (Entry α)) := by
  intro pre ids run ids' post h
  simp at h

theorem not_open_nil : ¬ Open ([] : List (Entry α)) id := by
  rintro ⟨pre, ids, post, h, -⟩
  simp at h

/-- A split of a log at a turn, when another entry comes last. -/
theorem split_concat {pre post : List (Entry α)} (h : log ++ [e] = pre ++ .turn ids :: post) :
    (post = [] ∧ e = .turn ids ∧ log = pre) ∨
      ∃ init, post = init ++ [e] ∧ log = pre ++ .turn ids :: init := by
  obtain rfl | ⟨init, last, rfl⟩ := List.eq_nil_or_concat post
  · obtain ⟨rfl, hlast⟩ := List.append_inj' h rfl
    exact .inl ⟨rfl, List.singleton_inj.mp hlast, rfl⟩
  · rw [List.concat_eq_append, ← List.cons_append, ← List.append_assoc] at h
    obtain ⟨rfl, hlast⟩ := List.append_inj' h rfl
    exact .inr ⟨init, by rw [List.concat_eq_append, List.singleton_inj.mp hlast], rfl⟩

theorem open_reply : Open (log ++ [.reply target]) id ↔ Open log id ∧ target ≠ some id := by
  constructor
  · rintro ⟨pre, ids, post, h, hmem, hnone⟩
    obtain ⟨-, hturn, -⟩ | ⟨init, rfl, rfl⟩ := split_concat h
    · cases hturn
    · simp only [List.mem_append, List.mem_singleton, not_or] at hnone
      exact ⟨⟨pre, ids, init, rfl, hmem, hnone.1⟩, fun htarget => hnone.2 (htarget ▸ rfl)⟩
  · rintro ⟨⟨pre, ids, post, rfl, hmem, hnone⟩, htarget⟩
    refine ⟨pre, ids, post ++ [.reply target], by simp, hmem, ?_⟩
    simpa [hnone] using Ne.symm htarget

theorem open_turn : Open (log ++ [.turn ids]) id ↔ Open log id ∨ id ∈ ids := by
  constructor
  · rintro ⟨pre, ids', post, h, hmem, hnone⟩
    obtain ⟨-, hturn, -⟩ | ⟨init, rfl, rfl⟩ := split_concat h
    · cases hturn
      exact .inr hmem
    · exact .inl ⟨pre, ids', init, rfl, hmem, fun hinit => hnone (List.mem_append_left _ hinit)⟩
  · rintro (⟨pre, ids', post, rfl, hmem, hnone⟩ | hmem)
    · exact ⟨pre, ids', post ++ [.turn ids], by simp, hmem, by simpa using hnone⟩
    · exact ⟨log, ids, [], rfl, hmem, List.not_mem_nil⟩

theorem Answered.reply (h : Answered log) : Answered (log ++ [.reply target]) := by
  intro pre ids run ids' post heq
  rw [← List.cons_append, ← List.append_assoc] at heq
  obtain ⟨-, hturn, -⟩ | ⟨init, rfl, rfl⟩ := split_concat heq
  · cases hturn
  · exact h pre ids run ids' init (by simp)

/-- A turn may follow once nothing is open. -/
theorem Answered.turn (h : Answered log) (hnone : ∀ id, ¬ Open log id) :
    Answered (log ++ [.turn ids]) := by
  intro pre ids₀ run ids' post heq hrun id hid
  rw [← List.cons_append, ← List.append_assoc] at heq
  obtain ⟨rfl, -, rfl⟩ | ⟨init, rfl, rfl⟩ := split_concat heq
  · by_contra hreply
    exact hnone id ⟨pre, ids₀, run, rfl, hid, hreply⟩
  · exact h pre ids₀ run ids' init (by simp) hrun id hid

/-- Replies to requests close them, one after another. -/
theorem open_replies {ids : List α} :
    Open (log ++ ids.map fun id => .reply (some id)) id ↔ Open log id ∧ id ∉ ids := by
  induction ids generalizing log with
  | nil => simp
  | cons first ids ih =>
    rw [List.map_cons, List.append_cons, ih, open_reply]
    simp [and_assoc, eq_comm]

theorem Answered.replies (h : Answered log) (ids : List α) :
    Answered (log ++ ids.map fun id => .reply (some id)) := by
  induction ids generalizing log with
  | nil => simpa using h
  | cons first ids ih =>
    rw [List.map_cons, List.append_cons]
    exact ih h.reply

end OpenClaw.Ledger
