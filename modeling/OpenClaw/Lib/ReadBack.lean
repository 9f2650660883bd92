import Mathlib.Data.List.Basic
import Mathlib.Data.List.Induction

/-!
# Texts read from their end

Encodings that can be read back from the end of a text: where what stands before an
encoded value ends in one of the characters that lead to a value, the encoding tells the
value and the place where it begins.
-/

namespace OpenClaw.ReadBack

variable {α : Type u} {β : Type v} {leads : List β} {enc : α → List β} {a b : α} {c o : β}
  {r r' : List β}

/-- What stands before a value ends so. -/
def Leads (leads : List β) (r : List β) : Prop := ∀ c ∈ r.getLast?, c ∈ leads

/-- The encoding of `a` is told apart from what stands before it. -/
def ToldApart (leads : List β) (enc : α → List β) (a : α) : Prop :=
  ∀ b r r', Leads leads r → Leads leads r' → r ++ enc a = r' ++ enc b → a = b ∧ r = r'

/-- The encoding ends in a character that leads to no value. -/
def Closed (leads : List β) (enc : α → List β) : Prop := ∀ a, ∃ c ∈ (enc a).getLast?, c ∉ leads

theorem leads_concat (hc : c ∈ leads) (r : List β) : Leads leads (r ++ [c]) := by
  rw [Leads, List.getLast?_concat]
  rintro _ ⟨⟩
  exact hc

/-- Where one encoding ends another, the other goes on before it with a character that does
not lead to a value. -/
theorem toldApart_of_cut (hinj : Function.Injective enc)
    (hcut : ∀ a b u, u ≠ [] → enc a = u ++ enc b → ∃ c ∈ u.getLast?, c ∉ leads) (a : α) :
    ToldApart leads enc a := by
  have hone {a b : α} {r u : List β} (hr : Leads leads (r ++ u)) (h : enc a = u ++ enc b) :
      a = b ∧ u = [] := by
    by_cases hu : u = []
    · subst hu
      exact ⟨hinj h, rfl⟩
    · obtain ⟨c, hc, hleads⟩ := hcut a b u hu h
      exact absurd (hr c (by rw [List.getLast?_append, hc]; rfl)) hleads
  intro b r r' hr hr' h
  rcases List.append_eq_append_iff.mp h with ⟨u, rfl, hu⟩ | ⟨u, rfl, hu⟩
  · obtain ⟨rfl, rfl⟩ := hone hr' hu
    exact ⟨rfl, (List.append_nil r).symm⟩
  · obtain ⟨rfl, rfl⟩ := hone hr hu
    exact ⟨rfl, List.append_nil r'⟩

theorem toldApart_of_letters (hinj : Function.Injective enc) (h : ∀ a, ∀ c ∈ enc a, c ∉ leads)
    (a : α) : ToldApart leads enc a := by
  refine toldApart_of_cut hinj (fun a b u hu heq => ⟨u.getLast hu, ?_, ?_⟩) a
  · exact List.getLast?_eq_some_getLast hu
  · exact h a _ (heq ▸ List.mem_append_left _ (List.getLast_mem hu))

-- ---
-- Separated lists
-- ---

theorem intercalate_concat {texts : List (List β)} (h : texts ≠ []) (text : List β) :
    [c].intercalate (texts ++ [text]) = [c].intercalate texts ++ c :: text := by
  induction texts with
  | nil => exact absurd rfl h
  | cons first texts ih =>
    cases texts with
    | nil => simp
    | cons second texts =>
      have hrest := ih (List.cons_ne_nil second texts)
      simp_all

/-- What stands before the last of the elements, where others stand before it. -/
def front (c : β) (enc : α → List β) (r : List β) : List α → List β
  | [] => r
  | a :: l => r ++ [c].intercalate ((a :: l).map enc) ++ [c]

theorem append_intercalate_concat (r : List β) (l : List α) (a : α) :
    r ++ [c].intercalate ((l ++ [a]).map enc) = front c enc r l ++ enc a := by
  cases l with
  | nil => simp [front]
  | cons b l =>
    rw [List.map_append, List.map_singleton, intercalate_concat (by simp)]
    simp [front]

theorem leads_front (hc : c ∈ leads) (hr : Leads leads r) :
    ∀ l : List α, Leads leads (front c enc r l)
  | [] => hr
  | _ :: _ => leads_concat hc _

/-- The elements of a list behind an opening character, with separators between them. -/
theorem toldApart_list (ho : o ∈ leads) (hc : c ∈ leads) (hne : o ≠ c) (hclosed : Closed leads enc)
    {l l' : List α} (h : ∀ a ∈ l, ToldApart leads enc a)
    (heq : r ++ [o] ++ [c].intercalate (l.map enc) = r' ++ [o] ++ [c].intercalate (l'.map enc)) :
    l = l' ∧ r = r' := by
  have hopen (r r' : List β) (l : List α) (a : α) : front c enc r l ++ enc a ≠ r' ++ [o] := by
    intro heq
    obtain ⟨d, hd, hends⟩ := hclosed a
    have hlast := congrArg List.getLast? heq
    rw [List.getLast?_append, hd, List.getLast?_concat] at hlast
    exact hends (Option.some.inj hlast ▸ ho)
  have hfirst {r r' : List β} {l : List α} {a : α} (heq : r ++ [o] = front c enc r' (a :: l)) :
      o = c := by
    have hlast := congrArg List.getLast? heq
    rw [front, List.getLast?_concat, List.getLast?_concat] at hlast
    exact Option.some.inj hlast
  induction l using List.reverseRecOn generalizing l' with
  | nil =>
    rcases l'.eq_nil_or_concat' with rfl | ⟨l', b, rfl⟩
    · exact ⟨rfl, by simpa using heq⟩
    · rw [append_intercalate_concat] at heq
      exact absurd heq.symm (by simpa using hopen (r' ++ [o]) r l' b)
  | append_singleton l a ih =>
    rw [append_intercalate_concat] at heq
    rcases l'.eq_nil_or_concat' with rfl | ⟨l', b, rfl⟩
    · exact absurd heq (by simpa using hopen (r ++ [o]) r' l a)
    · rw [append_intercalate_concat] at heq
      obtain ⟨rfl, hfront⟩ := h a (by simp) b _ _ (leads_front hc (leads_concat ho r) l)
        (leads_front hc (leads_concat ho r') l') heq
      cases l with
      | nil =>
        cases l' with
        | nil => exact ⟨rfl, by simpa [front] using hfront⟩
        | cons b' l' => exact absurd (hfirst hfront) hne
      | cons b l =>
        cases l' with
        | nil => exact absurd (hfirst hfront.symm) hne
        | cons b' l' =>
          obtain ⟨hl, rfl⟩ := ih (fun x hx => h x (List.mem_append_left _ hx))
            (List.append_cancel_right hfront)
          exact ⟨by rw [hl], rfl⟩

end OpenClaw.ReadBack
