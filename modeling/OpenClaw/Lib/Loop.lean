/-!
# Loops

A loop runs its body until it is done. It is run for a number of rounds, and is
not done when they do not suffice; a variant that gets smaller in each round
says how many do.
-/

namespace OpenClaw.Loop

variable {σ : Type u} {β : Type v} {body : σ → σ ⊕ β}

/-- At most `n` rounds. The body goes on in a new state or is done. -/
def rounds (body : σ → σ ⊕ β) : Nat → σ → Option β
  | 0, _ => none
  | n + 1, s =>
    match body s with
    | .inl s' => rounds body n s'
    | .inr b => some b

theorem rounds_next (h : body s = .inl s') : rounds body (n + 1) s = rounds body n s' := by
  simp [rounds, h]

theorem rounds_done (h : body s = .inr b) : rounds body (n + 1) s = some b := by
  simp [rounds, h]

/-- A variant bounds the rounds. -/
theorem rounds_isSome (variant : σ → Nat) (hless : ∀ s s', body s = .inl s' → variant s' < variant s)
    (hn : variant s < n) : (rounds body n s).isSome = true := by
  induction n generalizing s with
  | zero => omega
  | succ n ih =>
    cases hbody : body s with
    | inl s' =>
      rw [rounds_next hbody]
      have := hless s s' hbody
      exact ih (by omega)
    | inr b =>
      rw [rounds_done hbody]
      rfl

/-- The rule for what holds when the loop is done. -/
theorem rounds_invariant {I : σ → Prop} {P : β → Prop} (hs : I s)
    (hnext : ∀ s s', I s → body s = .inl s' → I s')
    (hdone : ∀ s b, I s → body s = .inr b → P b) (h : rounds body n s = some b) : P b := by
  induction n generalizing s with
  | zero => cases h
  | succ n ih =>
    cases hbody : body s with
    | inl s' =>
      rw [rounds_next hbody] at h
      exact ih (hnext s s' hs hbody) h
    | inr b' =>
      rw [rounds_done hbody] at h
      cases h
      exact hdone s b hs hbody

-- ---
-- The states a loop goes through
-- ---

/-- The states in which the body is run. -/
def visited (body : σ → σ ⊕ β) : Nat → σ → List σ
  | 0, _ => []
  | n + 1, s =>
    s :: match body s with
      | .inl s' => visited body n s'
      | .inr _ => []

theorem visited_next (h : body s = .inl s') : visited body (n + 1) s = s :: visited body n s' := by
  simp [visited, h]

theorem visited_done (h : body s = .inr b) : visited body (n + 1) s = [s] := by
  simp [visited, h]

/-- What a loop puts out is what its states put out, one after the other. -/
theorem rounds_output {γ : Type w} {out acc : σ → List γ} {result : β → List γ}
    (hnext : ∀ s s', body s = .inl s' → acc s' = acc s ++ out s)
    (hdone : ∀ s b, body s = .inr b → result b = acc s ++ out s)
    (h : rounds body n s = some b) : result b = acc s ++ (visited body n s).flatMap out := by
  induction n generalizing s with
  | zero => cases h
  | succ n ih =>
    cases hbody : body s with
    | inl s' =>
      rw [rounds_next hbody] at h
      rw [ih h, hnext s s' hbody, visited_next hbody, List.flatMap_cons, List.append_assoc]
    | inr b' =>
      rw [rounds_done hbody] at h
      cases h
      rw [hdone s b hbody, visited_done hbody, List.flatMap_singleton]

/-- The rule for what holds in each state, while the states keep to a condition. -/
theorem visited_invariant {I Q : σ → Prop} (hs : I s)
    (hnext : ∀ s s', I s → Q s → body s = .inl s' → I s') (hQ : ∀ s' ∈ visited body n s, Q s') :
    ∀ s' ∈ visited body n s, I s' := by
  induction n generalizing s with
  | zero => simp [visited]
  | succ n ih =>
    cases hbody : body s with
    | inl s' =>
      rw [visited_next hbody] at hQ ⊢
      obtain ⟨hfirst, hrest⟩ := List.forall_mem_cons.mp hQ
      exact List.forall_mem_cons.mpr ⟨hs, ih (hnext s s' hs hfirst hbody) hrest⟩
    | inr b =>
      rw [visited_done hbody]
      simpa using hs

end OpenClaw.Loop
