import OpenClaw.Agents.Compaction

/-!
# Chunks of messages

Both chunkers partition the messages: `splitMessagesByTokenShare` into no more parts than asked
for, `chunkMessagesByMaxTokens` into parts below a maximum, but for single messages above it.
-/

namespace OpenClaw.Agents.Compaction

open Js (Number toDouble)

-- ---
-- The code
-- ---

def SAFETY_MARGIN : Rat := toDouble (6 / 5)

/-- `value / SAFETY_MARGIN` -/
def withoutMargin : Number → Number
  | .fin q => .fin (toDouble (q / SAFETY_MARGIN))
  | n => n

def effectiveMax (maxTokens : Number) : Number :=
  Number.max (.ofInt 1) (withoutMargin maxTokens).floor

section
variable (estimateTokens : Message → Nat)

/-- The loop over the messages. -/
def chunkLoop (maximum : Number) :
    List (List Message) → List Message → Nat → List Message → List (List Message)
  | chunks, currentChunk, _, [] => if currentChunk.isEmpty then chunks else chunks ++ [currentChunk]
  | chunks, currentChunk, currentTokens, message :: messages =>
    let messageTokens := estimateCompactionMessageTokens estimateTokens message
    let full := !currentChunk.isEmpty && maximum.lt (.ofInt (currentTokens + messageTokens : Nat))
    let chunks := if full then chunks ++ [currentChunk] else chunks
    let currentChunk := if full then [message] else currentChunk ++ [message]
    let currentTokens := if full then messageTokens else currentTokens + messageTokens
    if maximum.lt (.ofInt messageTokens) then
      chunkLoop maximum (chunks ++ [currentChunk]) [] 0 messages
    else chunkLoop maximum chunks currentChunk currentTokens messages

def chunkMessagesByMaxTokens (messages : List Message) (maxTokens : Number) : List (List Message) :=
  if messages.isEmpty then []
  else chunkLoop estimateTokens (effectiveMax maxTokens) [] [] 0 messages

/-- A chunk within the maximum, or a single message above it. -/
def Bounded (maximum : Number) (chunk : List Message) : Prop :=
  maximum.lt (.ofInt (estimateMessagesTokens estimateTokens chunk)) = false ∨
    ∃ message, chunk = [message] ∧
      maximum.lt (.ofInt (estimateCompactionMessageTokens estimateTokens message)) = true

end

/-- The chunks are not empty and are the messages, one after the other. -/
structure Partitions (messages : List Message) (chunks : List (List Message)) : Prop where
  ne_nil : ∀ chunk ∈ chunks, chunk ≠ []
  flatten : chunks.flatten = messages

-- ---
-- Shares
-- ---

section
variable {estimateTokens : Message → Nat}

theorem length_splitLoop (hparts : chunks.length + 1 ≤ parts) :
    (splitLoop estimateTokens parts target chunks current n messages).length ≤ parts := by
  induction messages generalizing chunks current n with
  | nil =>
    rw [splitLoop]
    split
    · omega
    · rw [List.length_append, List.length_singleton]
      exact hparts
  | cons message messages ih =>
    rw [splitLoop]
    split
    · rename_i hsplit
      simp only [Bool.and_eq_true, decide_eq_true_eq] at hsplit
      refine ih ?_
      rw [List.length_append, List.length_singleton]
      omega
    · exact ih hparts

/-- As many parts as asked for, if that is a finite number above one. -/
theorem le_parts {parts : Number} {count m : Nat} (hm : m ≤ max 1 (normalizeParts parts count)) :
    m ≤ 1 ∨ Number.le (.ofInt m) parts = true := by
  cases parts with
  | fin q =>
    rw [normalizeParts] at hm
    split at hm
    · exact .inl (by omega)
    · rename_i hq
      have hfloor : (1 : Int) ≤ q.floor :=
        Rat.le_floor_iff.2 (by exact_mod_cast (not_le.1 hq).le)
      have hle : (m : Int) ≤ q.floor := by
        rw [Js.floorNat] at hm
        omega
      have hcast : ((m : Int) : Rat) ≤ q := le_trans (by exact_mod_cast hle) (Rat.floor_le q)
      refine .inr ?_
      simp only [Number.le, Number.lt, Number.ofInt, Bool.not_eq_true', decide_eq_false_iff_not,
        not_lt]
      exact hcast
  | _ => exact .inl hm

/-- No more parts than asked for, or one. -/
theorem length_splitMessagesByTokenShare (estimateTokens : Message → Nat) (messages : List Message)
    (parts : Number) :
    (splitMessagesByTokenShare estimateTokens messages parts).length ≤
      max 1 (normalizeParts parts messages.length) := by
  unfold splitMessagesByTokenShare
  split
  · exact Nat.zero_le _
  · dsimp only
    split
    · exact le_max_left _ _
    · exact le_max_of_le_right (length_splitLoop (by rw [List.length_nil]; omega))

-- ---
-- Chunks below a maximum
-- ---

theorem estimateMessagesTokens_append (messages : List Message) (message : Message) :
    estimateMessagesTokens estimateTokens (messages ++ [message]) =
      estimateMessagesTokens estimateTokens messages +
        estimateCompactionMessageTokens estimateTokens message := by
  simp [estimateMessagesTokens, estimateCompactionMessageTokens, stripToolResultDetails]

/-- What the loop keeps: its chunks are done, and the current one is within the maximum. -/
structure Chunked (estimateTokens : Message → Nat) (maximum : Number) (chunks : List (List Message))
    (current : List Message) (n : Nat) : Prop where
  ne_nil : ∀ chunk ∈ chunks, chunk ≠ []
  bounded : ∀ chunk ∈ chunks, Bounded estimateTokens maximum chunk
  tokens : n = estimateMessagesTokens estimateTokens current
  within : current ≠ [] → maximum.lt (.ofInt n) = false

theorem lt_ofInt_trans {maximum : Number} {m n : Nat} (hmn : m ≤ n)
    (h : maximum.lt (.ofInt m) = true) : maximum.lt (.ofInt n) = true := by
  cases maximum with
  | fin q =>
    simp only [Number.lt, Number.ofInt, decide_eq_true_eq] at h ⊢
    exact lt_of_lt_of_le h (by exact_mod_cast hmn)
  | negInf => rfl
  | posInf | nan => cases h

/-- A chunk that is not empty may be closed. -/
theorem Chunked.close (h : Chunked estimateTokens maximum chunks current n)
    (hcurrent : current ≠ []) :
    Chunked estimateTokens maximum (chunks ++ [current]) [] 0 :=
  ⟨List.forall_mem_append.2 ⟨h.ne_nil, List.forall_mem_singleton.2 hcurrent⟩,
    List.forall_mem_append.2 ⟨h.bounded, List.forall_mem_singleton.2
      (.inl (h.tokens ▸ h.within hcurrent))⟩, rfl, fun hnil => absurd rfl hnil⟩

/-- A message above the maximum is a chunk of its own, any other goes into the current one. -/
theorem Chunked.add (message : Message) (h : Chunked estimateTokens maximum chunks current n)
    (hroom : current ≠ [] →
      maximum.lt (.ofInt (n + estimateCompactionMessageTokens estimateTokens message : Nat)) = false) :
    if maximum.lt (.ofInt (estimateCompactionMessageTokens estimateTokens message)) then
      Chunked estimateTokens maximum (chunks ++ [current ++ [message]]) [] 0
    else Chunked estimateTokens maximum chunks (current ++ [message])
      (n + estimateCompactionMessageTokens estimateTokens message) := by
  split
  · rename_i hover
    have hempty : current = [] := by
      by_contra hcurrent
      have hlt := lt_ofInt_trans (Nat.le_add_left _ n) hover
      rw [hroom hcurrent] at hlt
      cases hlt
    refine ⟨List.forall_mem_append.2 ⟨h.ne_nil, List.forall_mem_singleton.2 (by simp)⟩,
      List.forall_mem_append.2 ⟨h.bounded, List.forall_mem_singleton.2 (.inr ⟨message, ?_, hover⟩)⟩,
      rfl, fun hnil => absurd rfl hnil⟩
    rw [hempty, List.nil_append]
  · rename_i hover
    refine ⟨h.ne_nil, h.bounded, by rw [estimateMessagesTokens_append, h.tokens], fun _ => ?_⟩
    by_cases hcurrent : current = []
    · have hnone : n = 0 := by
        rw [h.tokens, hcurrent]
        rfl
      rw [hnone, Nat.zero_add]
      exact Bool.eq_false_iff.2 hover
    · exact hroom hcurrent

theorem chunkLoop_partitions (messages : List Message)
    (h : Chunked estimateTokens maximum chunks current n) :
    (∀ chunk ∈ chunkLoop estimateTokens maximum chunks current n messages,
      chunk ≠ [] ∧ Bounded estimateTokens maximum chunk) ∧
      (chunkLoop estimateTokens maximum chunks current n messages).flatten =
        chunks.flatten ++ (current ++ messages) := by
  induction messages generalizing chunks current n with
  | nil =>
    rw [chunkLoop]
    split
    · rename_i hempty
      rw [List.isEmpty_iff.1 hempty, List.append_nil, List.append_nil]
      exact ⟨fun chunk hchunk => ⟨h.ne_nil chunk hchunk, h.bounded chunk hchunk⟩, rfl⟩
    · rename_i hcurrent
      have hdone := h.close fun heq => hcurrent (List.isEmpty_iff.2 heq)
      refine ⟨fun chunk hchunk => ⟨hdone.ne_nil chunk hchunk, hdone.bounded chunk hchunk⟩, ?_⟩
      rw [List.flatten_append, List.flatten_singleton, List.append_nil]
  | cons message messages ih =>
    rw [chunkLoop]
    by_cases hfull : (!current.isEmpty && maximum.lt (.ofInt
        (n + estimateCompactionMessageTokens estimateTokens message : Nat))) = true
    · simp only [hfull, if_true]
      have hcurrent : current ≠ [] := by
        intro heq
        rw [heq] at hfull
        cases hfull
      have hadd := (h.close hcurrent).add message fun hnil => absurd rfl hnil
      simp only [List.nil_append, Nat.zero_add] at hadd
      split at hadd
      · rename_i hover
        simpa [hover] using ih hadd
      · rename_i hover
        simpa [hover] using ih hadd
    · simp only [hfull, if_false, Bool.false_eq_true]
      have hadd := h.add message fun hcurrent => by
        simpa [List.isEmpty_iff, hcurrent] using hfull
      split at hadd
      · rename_i hover
        simpa [hover] using ih hadd
      · rename_i hover
        simpa [hover] using ih hadd

/-- The chunks of both functions are a partition, of no more parts than asked for (or one) and
within the maximum (or of one message). -/
theorem chunkers_partition (estimateTokens : Message → Nat) (messages : List Message)
    (parts maxTokens : Number) :
    let shares := splitMessagesByTokenShare estimateTokens messages parts
    let chunks := chunkMessagesByMaxTokens estimateTokens messages maxTokens
    Partitions messages shares ∧
      (shares.length ≤ 1 ∨ Number.le (.ofInt shares.length) parts = true) ∧
      Partitions messages chunks ∧
      ∀ chunk ∈ chunks, Bounded estimateTokens (effectiveMax maxTokens) chunk := by
  intro shares chunks
  have hloop := chunkLoop_partitions messages
    (⟨fun _ h => absurd h List.not_mem_nil, fun _ h => absurd h List.not_mem_nil, rfl,
      fun h => absurd rfl h⟩ : Chunked estimateTokens (effectiveMax maxTokens) [] [] 0)
  have hchunks : chunks = chunkLoop estimateTokens (effectiveMax maxTokens) [] [] 0 messages := by
    cases messages <;> rfl
  rw [hchunks]
  refine ⟨⟨fun chunk => splitMessagesByTokenShare_ne_nil estimateTokens messages parts,
    flatten_splitMessagesByTokenShare ..⟩,
    le_parts (length_splitMessagesByTokenShare estimateTokens messages parts),
    ⟨fun chunk hchunk => (hloop.1 chunk hchunk).1, hloop.2⟩,
    fun chunk hchunk => (hloop.1 chunk hchunk).2⟩

end

/-- Where no part is asked for, there is one. -/
theorem not_length_le_parts : ¬ Number.le
    (.ofInt (splitMessagesByTokenShare (fun _ => 1) [.other .null] (.fin 0)).length) (.fin 0) =
      true := by
  decide

end OpenClaw.Agents.Compaction
