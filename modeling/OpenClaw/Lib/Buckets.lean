import OpenClaw.Lib.Members

/-!
# Lists under keys

An index that keeps, under each key, the items that have it in the order in which they came:
looking a key up is filtering the items.
-/

namespace OpenClaw.Buckets

open Members

variable {κ α : Type} [DecidableEq κ] [BEq κ] [LawfulBEq κ]

omit [DecidableEq κ] [LawfulBEq κ] in
/-- What stands under a key. -/
def get (buckets : List (κ × List α)) (key : κ) : List α := (buckets.lookup key).getD []

def push (buckets : List (κ × List α)) (key : κ) (item : α) : List (κ × List α) :=
  assign buckets key (get buckets key ++ [item])

/-- The item, put under each of the keys. -/
def pushAll (buckets : List (κ × List α)) (keys : List κ) (item : α) : List (κ × List α) :=
  keys.foldl (push · · item) buckets

omit [DecidableEq κ] [LawfulBEq κ] in
@[simp] theorem get_nil (key : κ) : get ([] : List (κ × List α)) key = [] := rfl

theorem get_push (buckets : List (κ × List α)) (key key' : κ) (item : α) :
    get (push buckets key item) key' = get buckets key' ++ if key' = key then [item] else [] := by
  rw [get, push, lookup_assign]
  split
  case isTrue h => rw [h, Option.getD_some]
  case isFalse => rw [List.append_nil, get]

theorem get_pushAll {keys : List κ} (hnodup : keys.Nodup) (buckets : List (κ × List α)) (key : κ)
    (item : α) :
    get (pushAll buckets keys item) key = get buckets key ++ if key ∈ keys then [item] else [] := by
  induction keys generalizing buckets with
  | nil => simp [pushAll]
  | cons first keys ih =>
    obtain ⟨hfirst, hkeys⟩ := List.nodup_cons.mp hnodup
    have hstep : pushAll buckets (first :: keys) item =
        pushAll (push buckets first item) keys item := rfl
    rw [hstep, ih hkeys, get_push, List.append_assoc]
    by_cases heq : key = first
    · simp [heq, hfirst]
    · simp [heq]

/-- Filtering a list with one item more. -/
theorem filter_snoc (p : α → Bool) (items : List α) (item : α) :
    (items ++ [item]).filter p = items.filter p ++ if p item then [item] else [] := by
  rw [List.filter_append, List.filter_singleton, Bool.cond_eq_ite]

-- ---
-- Items in order
-- ---

/-- Two parts of a list in order merge to the part that both make up. -/
theorem merge_filter {rank : α → Nat} {items : List α} (horder : items.Pairwise (rank · < rank ·))
    {p q : α → Bool} (hdisjoint : ∀ item, p item → q item = false) :
    (items.filter p).merge (items.filter q) (fun a b => rank a ≤ rank b) =
      items.filter fun item => p item || q item := by
  induction items with
  | nil => simp
  | cons item items ih =>
    obtain ⟨hfirst, hrest⟩ := List.pairwise_cons.mp horder
    cases hp : p item with
    | true =>
      rw [List.filter_cons_of_pos hp, List.filter_cons_of_neg (by simp [hdisjoint item hp]),
        List.filter_cons_of_pos (by simp [hp]), ← ih hrest]
      cases hq : items.filter q with
      | nil => simp
      | cons other others =>
        have hmem : other ∈ items.filter q := hq ▸ List.mem_cons_self
        have hle := Nat.le_of_lt (hfirst other (List.mem_of_mem_filter hmem))
        rw [List.cons_merge_cons_pos _ _ _ (by simpa using hle)]
    | false =>
      rw [List.filter_cons_of_neg (by simp [hp])]
      cases hq : q item with
      | false =>
        rw [List.filter_cons_of_neg (by simp [hq]), List.filter_cons_of_neg (by simp [hp, hq]),
          ih hrest]
      | true =>
        rw [List.filter_cons_of_pos hq, List.filter_cons_of_pos (by simp [hq]), ← ih hrest]
        cases hp' : items.filter p with
        | nil => simp
        | cons other others =>
          have hmem : other ∈ items.filter p := hp' ▸ List.mem_cons_self
          have hlt := hfirst other (List.mem_of_mem_filter hmem)
          rw [List.cons_merge_cons_neg _ _ _ (by simpa using hlt)]

/-- The items, each only once. -/
def gather [DecidableEq α] (items : List α) : List α :=
  items.foldl (fun out item => if out.contains item then out else out ++ [item]) []

/-- What has been gathered already changes nothing. -/
theorem gather_append [DecidableEq α] {items more : List α} (hnodup : items.Nodup)
    (hmore : ∀ item ∈ more, item ∈ items) : gather (items ++ more) = items := by
  have hnew (out rest : List α) (h : (out ++ rest).Nodup) :
      rest.foldl (fun out item => if out.contains item then out else out ++ [item]) out =
        out ++ rest := by
    induction rest generalizing out with
    | nil => simp
    | cons item rest ih =>
      have hitem : item ∉ out := fun hmem =>
        (List.nodup_append.mp h).2.2 item hmem item List.mem_cons_self rfl
      rw [List.foldl_cons, if_neg (by simpa using hitem), ih _ (by simpa using h)]
      simp
  have hold (rest : List α) (h : ∀ item ∈ rest, item ∈ items) :
      rest.foldl (fun out item => if out.contains item then out else out ++ [item]) items =
        items := by
    induction rest with
    | nil => rfl
    | cons item rest ih =>
      obtain ⟨hitem, hrest⟩ := List.forall_mem_cons.mp h
      rw [List.foldl_cons, if_pos (by simpa using hitem), ih hrest]
  rw [gather, List.foldl_append, hnew [] items hnodup, List.nil_append, hold more hmore]

-- ---
-- Searching in rounds
-- ---

/-- Two searches agree when they do in the first round, and in the rest where it finds nothing. -/
theorem findSome?_cons_congr {β γ : Type} {f : α → Option γ} {g : β → Option γ} {a : α} {b : β}
    {as : List α} {bs : List β} (hfirst : f a = g b)
    (hrest : g b = none → as.findSome? f = bs.findSome? g) :
    (a :: as).findSome? f = (b :: bs).findSome? g := by
  rw [List.findSome?_cons, List.findSome?_cons, hfirst]
  cases hg : g b with
  | none => exact hrest hg
  | some found => rfl

/-- A search among the items that can be found is a search among all. -/
theorem find?_filter_eq {p q : α → Bool} {items : List α} (h : ∀ item ∈ items, q item → p item) :
    (items.filter p).find? q = items.find? q := by
  induction items with
  | nil => rfl
  | cons item items ih =>
    obtain ⟨hitem, hrest⟩ := List.forall_mem_cons.mp h
    rw [List.find?_cons]
    cases hq : q item with
    | true => rw [List.filter_cons_of_pos (hitem hq), List.find?_cons, hq]
    | false =>
      by_cases hp : p item
      · rw [List.filter_cons_of_pos hp, List.find?_cons, hq, ih hrest]
      · rw [List.filter_cons_of_neg hp, ih hrest]

end OpenClaw.Buckets
