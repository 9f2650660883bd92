import Mathlib.Algebra.BigOperators.Group.List.Defs

/-!
# Blocks between marks

A text with blocks between an opening and a closing mark, and the text without them. Both
marks begin with one letter, which is nowhere else in them, so that no mark begins inside
of another.
-/

namespace OpenClaw

structure Marks (α : Type u) where
  first : α
  opening : List α
  closing : List α
  notMem_opening : first ∉ opening
  notMem_closing : first ∉ closing
  opening_apart : ¬ opening <+: closing
  closing_apart : ¬ closing <+: opening

namespace Marks

variable {α : Type u} {a b : α} {w word s t text body v rest out : List α}

-- ---
-- Words that begin with a letter of their own
-- ---

theorem prefix_of_append_cons (hb : b ∉ w) (h : w <+: s ++ b :: t) : w <+: s := by
  induction w generalizing s with
  | nil => exact List.nil_prefix
  | cons a w ih =>
    simp only [List.mem_cons, not_or] at hb
    cases s with
    | nil => exact absurd (List.cons_prefix_cons.mp h).1.symm hb.1
    | cons c s =>
      obtain ⟨rfl, htail⟩ := List.cons_prefix_cons.mp h
      exact List.cons_prefix_cons.mpr ⟨rfl, ih hb.2 htail⟩

/-- A copy of the word lies before the letter or begins at or after it. -/
theorem infix_append_cons (hb : b ∉ w) (h : b :: w <:+: s ++ b :: t) :
    b :: w <:+: s ∨ b :: w <:+: b :: t := by
  induction s with
  | nil => exact .inr h
  | cons a s ih =>
    rcases List.infix_cons_iff.mp h with hprefix | hinfix
    · have hhere : b :: w <+: a :: s := by
        obtain ⟨rfl, htail⟩ := List.cons_prefix_cons.mp hprefix
        exact List.cons_prefix_cons.mpr ⟨rfl, prefix_of_append_cons hb htail⟩
      exact .inl hhere.isInfix
    · exact (ih hinfix).imp_left fun hs => List.infix_cons_iff.mpr (.inr hs)

/-- No copy of the word begins where its first letter is not. -/
theorem infix_of_append (hs : b ∉ s) (h : b :: w <:+: s ++ t) : b :: w <:+: t := by
  induction s with
  | nil => exact h
  | cons a s ih =>
    simp only [List.mem_cons, not_or] at hs
    rcases List.infix_cons_iff.mp h with hprefix | hinfix
    · exact absurd (List.cons_prefix_cons.mp hprefix).1 hs.1
    · exact ih hs.2 hinfix

/-- The first copy of the word is the one with none before it. -/
theorem exists_first (hne : word ≠ []) (h : word <:+: text) :
    ∃ body rest, text = body ++ (word ++ rest) ∧ ¬ word <:+: body := by
  obtain ⟨body, rest, rfl⟩ := h
  induction hlength : body.length using Nat.strongRecOn generalizing body rest with
  | ind n ih =>
    by_cases hbody : word <:+: body
    · obtain ⟨before, after, rfl⟩ := hbody
      have hword : 0 < word.length := List.length_pos_iff.mpr hne
      obtain ⟨first, last, heq, hfree⟩ := ih before.length
        (by simp only [List.length_append] at hlength; omega) before (after ++ word ++ rest) rfl
      exact ⟨first, last, by rw [← heq]; simp, hfree⟩
    · exact ⟨body, rest, by simp, hbody⟩

theorem prefix_of_first (hb : b ∉ w) (hfree : ¬ b :: w <:+: body)
    (h : body ++ (b :: w ++ rest) = s ++ (b :: w ++ t)) : body <+: s := by
  rcases List.prefix_or_prefix_of_prefix ⟨_, h⟩ (List.prefix_append s (b :: w ++ t)) with
    hs | ⟨middle, rfl⟩
  · exact hs
  · rw [List.append_assoc, List.append_cancel_left_eq] at h
    cases middle with
    | nil => simp
    | cons a middle =>
      have hcopy : b :: w <+: a :: middle ++ b :: (w ++ rest) := ⟨t, h.symm⟩
      obtain ⟨rfl, htail⟩ := List.cons_prefix_cons.mp hcopy
      have hhere : b :: w <+: b :: middle :=
        List.cons_prefix_cons.mpr ⟨rfl, prefix_of_append_cons hb htail⟩
      exact absurd (hhere.isInfix.trans (List.suffix_append s _).isInfix) hfree

variable (m : Marks α)

def opener : List α := m.first :: m.opening

def closer : List α := m.first :: m.closing

theorem exists_first_opener (h : m.opener <:+: text) :
    ∃ before after, text = before ++ (m.opener ++ after) ∧ ¬ m.opener <:+: before :=
  exists_first (List.cons_ne_nil _ _) h

theorem exists_first_closer (h : m.closer <:+: text) :
    ∃ body rest, text = body ++ (m.closer ++ rest) ∧ ¬ m.closer <:+: body :=
  exists_first (List.cons_ne_nil _ _) h

/-- No opening mark begins in a closing one. -/
theorem not_opener_closer (hv : ¬ m.opener <:+: v) : ¬ m.opener <:+: m.closer ++ v := by
  intro h
  rcases List.infix_cons_iff.mp h with hprefix | hinfix
  · have htail : m.opening <+: m.closing ++ v := (List.cons_prefix_cons.mp hprefix).2
    rcases List.prefix_or_prefix_of_prefix htail (List.prefix_append m.closing v) with h | h
    · exact m.opening_apart h
    · exact m.closing_apart h
  · exact hv (infix_of_append m.notMem_closing hinfix)

variable [DecidableEq α]

theorem dropInfix?_of_absent (h : ¬ word <:+: text) : text.dropInfix? word = none := by
  cases hdrop : text.dropInfix? word with
  | none => rfl
  | some split =>
    obtain ⟨⟨copy, htext, hcopy⟩, _⟩ := List.dropInfix?_eq_some_iff.mp hdrop
    obtain rfl : copy = word := by simpa using hcopy
    exact absurd ⟨split.1, split.2, htext.symm⟩ h

theorem dropInfix?_append (hb : b ∉ w) (h : ¬ b :: w <:+: body) :
    (body ++ (b :: w ++ rest)).dropInfix? (b :: w) = some (body, rest) := by
  refine List.dropInfix?_eq_some_iff.mpr
    ⟨⟨b :: w, by rw [List.append_assoc], beq_self_eq_true _⟩, ?_⟩
  rintro before copy after htext hcopy
  obtain rfl : copy = b :: w := by simpa using hcopy
  exact (prefix_of_first hb h (htext.trans (List.append_assoc ..))).length_le

-- ---
-- Texts without their blocks
-- ---

/-- The text without its blocks, where the next letters are to be skipped. -/
def stripFrom : Nat → List α → List α
  | _, [] => []
  | skipped + 1, _ :: text => stripFrom skipped text
  | 0, a :: text =>
    if m.opener <+: a :: text then
      match (text.drop m.opening.length).dropInfix? m.closer with
      | some (body, _) => stripFrom (m.opening.length + body.length + m.closer.length) text
      | none => a :: stripFrom 0 text
    else a :: stripFrom 0 text

/-- The text without its blocks: each runs from an opening mark to the next closing one. -/
def strip (text : List α) : List α := m.stripFrom 0 text

/-- What is behind the first closing mark, or all of a text without one. -/
def afterCloser (text : List α) : List α := ((text.dropInfix? m.closer).map (·.2)).getD text

/-- `out` is what is outside of the blocks of the text. -/
inductive Outside : List α → List α → Prop
  | nil : Outside [] []
  | block {body rest out : List α} : ¬ m.closer <:+: body → Outside rest out →
      Outside (m.opener ++ (body ++ (m.closer ++ rest))) out
  | letter {a : α} {text out : List α} : ¬ (m.opener <+: a :: text ∧ m.closer <:+: text) →
      Outside text out → Outside (a :: text) (a :: out)

theorem stripFrom_eq (skipped : Nat) (text : List α) :
    m.stripFrom skipped text = m.strip (text.drop skipped) := by
  induction skipped generalizing text with
  | zero => rfl
  | succ skipped ih =>
    cases text with
    | nil => rfl
    | cons a text => exact ih text

theorem strip_block (h : ¬ m.closer <:+: body) :
    m.strip (m.opener ++ (body ++ (m.closer ++ rest))) = m.strip rest := by
  have hopener : m.opener <+: m.first :: (m.opening ++ (body ++ (m.closer ++ rest))) :=
    List.prefix_append m.opener _
  have hdrop : (m.opening ++ (body ++ (m.closer ++ rest))).drop m.opening.length =
      body ++ (m.closer ++ rest) := List.drop_left
  have hcut : (body ++ (m.closer ++ rest)).dropInfix? m.closer = some (body, rest) :=
    dropInfix?_append m.notMem_closing h
  have hrest : (m.opening ++ (body ++ (m.closer ++ rest))).drop
      (m.opening.length + body.length + m.closer.length) = rest := by
    rw [← List.drop_drop, ← List.drop_drop, hdrop, List.drop_left, List.drop_left]
  change m.stripFrom 0 (m.first :: (m.opening ++ (body ++ (m.closer ++ rest)))) = _
  rw [stripFrom, if_pos hopener, hdrop, hcut]
  exact (m.stripFrom_eq _ _).trans (congrArg m.strip hrest)

theorem strip_letter (h : ¬ (m.opener <+: a :: text ∧ m.closer <:+: text)) :
    m.strip (a :: text) = a :: m.strip text := by
  unfold strip
  rw [stripFrom]
  split
  · rename_i hopener
    obtain ⟨tail, htail⟩ := hopener
    obtain ⟨rfl, rfl⟩ : m.first = a ∧ m.opening ++ tail = text := List.cons.inj htail
    have hfree : ¬ m.closer <:+: tail := fun hin =>
      h ⟨⟨tail, rfl⟩, hin.trans (List.suffix_append _ _).isInfix⟩
    rw [List.drop_left, dropInfix?_of_absent hfree]
  · rfl

theorem outside_strip (text : List α) : m.Outside text (m.strip text) := by
  induction hlength : text.length using Nat.strongRecOn generalizing text with
  | ind n ih =>
    cases text with
    | nil => exact .nil
    | cons a text =>
      by_cases h : m.opener <+: a :: text ∧ m.closer <:+: text
      · obtain ⟨⟨tail, htail⟩, hcloser⟩ := h
        obtain ⟨rfl, rfl⟩ : m.first = a ∧ m.opening ++ tail = text := List.cons.inj htail
        obtain ⟨body, rest, rfl, hbody⟩ := m.exists_first_closer
          (infix_of_append m.notMem_opening hcloser)
        change m.Outside (m.opener ++ (body ++ (m.closer ++ rest))) (m.strip (m.opener ++ _))
        rw [m.strip_block hbody]
        refine .block hbody (ih rest.length ?_ rest rfl)
        simp only [List.length_cons, List.length_append] at hlength
        omega
      · rw [m.strip_letter h]
        exact .letter h (ih text.length (by simp at hlength; omega) text rfl)

theorem outside_iff : m.Outside text out ↔ m.strip text = out := by
  constructor
  · intro h
    induction h with
    | nil => rfl
    | block hbody _ ih => rw [m.strip_block hbody, ih]
    | letter h _ ih => rw [m.strip_letter h, ih]
  · rintro rfl
    exact m.outside_strip text

/-- A text without opening marks stays, up to its end or to the next mark. -/
theorem strip_append (hv : ¬ m.opener <:+: v) (ht : ∀ b ∈ t.head?, b = m.first) :
    m.strip (v ++ t) = v ++ m.strip t := by
  induction v with
  | nil => rfl
  | cons a v ih =>
    rw [List.cons_append, m.strip_letter, ih fun hin => hv (List.infix_cons_iff.mpr (.inr hin)),
      List.cons_append]
    rintro ⟨hopener, -⟩
    refine hv (List.IsPrefix.isInfix ?_)
    cases t with
    | nil => simpa using hopener
    | cons b t =>
      obtain rfl := ht b rfl
      obtain ⟨rfl, htail⟩ := List.cons_prefix_cons.mp hopener
      exact List.cons_prefix_cons.mpr ⟨rfl, prefix_of_append_cons m.notMem_opening htail⟩

theorem strip_of_not_closer (h : ¬ m.closer <:+: text) : m.strip text = text := by
  induction text with
  | nil => rfl
  | cons a text ih =>
    have htail : ¬ m.closer <:+: text := fun hin => h (List.infix_cons_iff.mpr (.inr hin))
    rw [m.strip_letter fun hin => htail hin.2, ih htail]

theorem afterCloser_append (h : ¬ m.closer <:+: body) :
    m.afterCloser (body ++ (m.closer ++ rest)) = rest := by
  have hcut : (body ++ (m.closer ++ rest)).dropInfix? m.closer = some (body, rest) :=
    dropInfix?_append m.notMem_closing h
  rw [afterCloser, hcut]
  rfl

theorem afterCloser_of_absent (h : ¬ m.closer <:+: text) : m.afterCloser text = text := by
  rw [afterCloser, dropInfix?_of_absent h]
  rfl

/-- The text has two closing marks. -/
def TwoClosers (text : List α) : Prop :=
  ∃ before middle after, text = before ++ (m.closer ++ (middle ++ (m.closer ++ after)))

theorem closer_afterCloser_iff : m.closer <:+: m.afterCloser text ↔ m.TwoClosers text := by
  by_cases h : m.closer <:+: text
  · obtain ⟨body, rest, rfl, hbody⟩ := m.exists_first_closer h
    rw [m.afterCloser_append hbody]
    constructor
    · rintro ⟨middle, after, rfl⟩
      exact ⟨body, middle, after, by rw [List.append_assoc]⟩
    · rintro ⟨before, middle, after, htext⟩
      obtain ⟨skipped, rfl⟩ := prefix_of_first m.notMem_closing hbody htext
      have hlength := congrArg List.length htext
      have hsuffix : middle ++ (m.closer ++ after) <:+ m.closer ++ rest := by
        rw [List.append_assoc, List.append_cancel_left_eq] at htext
        exact ⟨skipped ++ m.closer, by rw [htext, List.append_assoc]⟩
      have hrest : middle ++ (m.closer ++ after) <:+ rest := by
        refine List.suffix_of_suffix_length_le hsuffix (List.suffix_append _ _) ?_
        simp only [List.length_append] at hlength ⊢
        omega
      exact (List.infix_append middle m.closer after).trans (List.append_assoc .. ▸ hrest.isInfix)
  · rw [m.afterCloser_of_absent h]
    refine iff_of_false h ?_
    rintro ⟨before, middle, after, rfl⟩
    exact h ⟨before, middle ++ (m.closer ++ after), by rw [List.append_assoc]⟩

-- ---
-- Texts made of visible segments and blocks
-- ---

/-- Blocks, each a body between marks with a visible segment behind it. -/
def marked (blocks : List (List α × List α)) : List α :=
  blocks.flatMap fun block => m.opener ++ (block.1 ++ (m.closer ++ block.2))

theorem strip_marked {blocks : List (List α × List α)} (hv : ¬ m.opener <:+: v)
    (hblocks : ∀ block ∈ blocks, ¬ m.closer <:+: block.1 ∧ ¬ m.opener <:+: block.2) :
    m.strip (v ++ m.marked blocks) = v ++ blocks.flatMap (·.2) := by
  induction blocks generalizing v with
  | nil => exact m.strip_append hv nofun
  | cons block blocks ih =>
    obtain ⟨hblock, hblocks⟩ := List.forall_mem_cons.mp hblocks
    have hmarked : m.marked (block :: blocks) =
        m.opener ++ (block.1 ++ (m.closer ++ (block.2 ++ m.marked blocks))) := by simp [marked]
    rw [hmarked, m.strip_append hv (by simp [opener]), m.strip_block hblock.1, ih hblock.2 hblocks,
      List.flatMap_cons]

end Marks

end OpenClaw
