import OpenClaw.Js.Text
import OpenClaw.Lib.ReadBack

/-!
# JSON texts

`JSON.stringify` of the values `JSON.parse` gives. Read from its end, the text of a value
tells the value and where its text began.
-/

namespace OpenClaw.Js

open ReadBack

/-- A finite number, by the decimal text it is written as and read back from. -/
structure Numeral where
  text : Text
  letters : ∀ c ∈ text, c.isDigit = true ∨ c ∈ ['-', '+', '.', 'e']
  last : ∃ c ∈ text.getLast?, c.isDigit = true

/-- A value as `JSON.parse` gives it. -/
inductive PlainValue
  | null
  | bool (b : Bool)
  | num (n : Numeral)
  | str (s : Text)
  | arr (items : List PlainValue)
  | obj (members : List (Text × PlainValue))

def quoted (s : Text) : Text := '"' :: (s.flatMap quoteChar ++ ['"'])

mutual
/-- `JSON.stringify(value)` -/
def stringify : PlainValue → Text
  | .null => ['n', 'u', 'l', 'l']
  | .bool b => if b then ['t', 'r', 'u', 'e'] else ['f', 'a', 'l', 's', 'e']
  | .num n => n.text
  | .str s => quoted s
  | .arr items => '[' :: [','].intercalate (itemTexts items) ++ [']']
  | .obj members => '\x7b' :: [','].intercalate (memberTexts members) ++ ['\x7d']
def itemTexts : List PlainValue → List Text
  | [] => []
  | v :: items => stringify v :: itemTexts items
def memberTexts : List (Text × PlainValue) → List Text
  | [] => []
  | (k, v) :: members => (quoted k ++ ':' :: stringify v) :: memberTexts members
end

def memberText (member : Text × PlainValue) : Text := quoted member.1 ++ ':' :: stringify member.2

theorem itemTexts_eq (items : List PlainValue) : itemTexts items = items.map stringify := by
  induction items with
  | nil => rfl
  | cons v items ih => rw [itemTexts, ih, List.map_cons]

theorem memberTexts_eq (members : List (Text × PlainValue)) :
    memberTexts members = members.map memberText := by
  induction members with
  | nil => rfl
  | cons member members ih =>
    rw [memberTexts, ih, List.map_cons]
    rfl

/-- What stands before a value ends in one of these. -/
def leads : List Char := [':', ',', '[', '\x7b']

-- ---
-- Strings
-- ---

def hexVal (c : Char) : Nat := if c.toNat < 58 then c.toNat - 48 else c.toNat - 87

/-- The next character of a quoted text. -/
def unquote : Text → Option (Char × Text)
  | '\\' :: 'u' :: _ :: _ :: a :: b :: rest => some (.ofNat (16 * hexVal a + hexVal b), rest)
  | '\\' :: 'b' :: rest => some (.ofNat 8, rest)
  | '\\' :: 't' :: rest => some (.ofNat 9, rest)
  | '\\' :: 'n' :: rest => some (.ofNat 10, rest)
  | '\\' :: 'f' :: rest => some (.ofNat 12, rest)
  | '\\' :: 'r' :: rest => some (.ofNat 13, rest)
  | '\\' :: c :: rest => some (c, rest)
  | c :: rest => some (c, rest)
  | [] => none

theorem hexVal_hexDigit : ∀ n < 16, hexVal (hexDigit n) = n := by decide

theorem unquote_quoteChar (c : Char) (rest : Text) :
    unquote (quoteChar c ++ rest) = some (c, rest) := by
  have hc {n : Nat} (h : c.toNat = n) : Char.ofNat n = c := h ▸ Char.ofNat_toNat c
  unfold quoteChar
  split_ifs with h₁ h₂ h₃ h₄ h₅ h₆ h₇ h₈
  · simp [unquote, h₁]
  · simp [unquote, h₂]
  · exact congrArg (fun c => some (c, rest)) (hc h₃)
  · exact congrArg (fun c => some (c, rest)) (hc h₄)
  · exact congrArg (fun c => some (c, rest)) (hc h₅)
  · exact congrArg (fun c => some (c, rest)) (hc h₆)
  · exact congrArg (fun c => some (c, rest)) (hc h₇)
  · have hvalue : 16 * (c.toNat / 16) + c.toNat % 16 = c.toNat := Nat.div_add_mod ..
    simp only [List.cons_append, List.nil_append, unquote, Option.some.injEq, Prod.mk.injEq,
      and_true]
    rw [hexVal_hexDigit _ (by omega), hexVal_hexDigit _ (by omega), hc hvalue.symm]
  · simp only [List.cons_append, List.nil_append]
    unfold unquote
    split <;> simp_all

theorem flatMap_quoteChar_injective : Function.Injective (List.flatMap quoteChar) := by
  have hne (c : Char) (s : Text) : ([] : Text).flatMap quoteChar ≠ (c :: s).flatMap quoteChar := by
    intro h
    have hnext := unquote_quoteChar c (s.flatMap quoteChar)
    rw [← List.flatMap_cons, ← h] at hnext
    cases hnext
  intro s
  induction s with
  | nil =>
    intro s' h
    cases s' with
    | nil => rfl
    | cons c s' => exact absurd h (hne c s')
  | cons c s ih =>
    intro s' h
    cases s' with
    | nil => exact absurd h.symm (hne c s)
    | cons c' s' =>
      have hnext := congrArg unquote h
      rw [List.flatMap_cons, List.flatMap_cons, unquote_quoteChar, unquote_quoteChar] at hnext
      obtain ⟨rfl, htail⟩ := Prod.mk.inj (Option.some.inj hnext)
      rw [ih htail]

/-- Only the quotation mark is written with one, and a backslash before it. -/
theorem getLast?_of_quoteChar {c : Char} {u w : Text} (h : quoteChar c = u ++ '"' :: w) :
    u.getLast? = some '\\' := by
  by_cases hc : c = '"'
  · subst hc
    change ['\\', '"'] = u ++ '"' :: w at h
    rcases u with _ | ⟨a, _ | ⟨b, u⟩⟩
    · simp at h
    · rw [(List.cons.inj h).1]
      rfl
    · simp at h
  · have hhex : ∀ n < 16, '"' ≠ hexDigit n := by decide
    have hcode (h : c.toNat < 32) :
        '"' ≠ hexDigit (c.toNat / 16) ∧ '"' ≠ hexDigit (c.toNat % 16) :=
      ⟨hhex _ (by omega), hhex _ (by omega)⟩
    have hnone : '"' ∉ quoteChar c := by
      rw [quoteChar, if_neg hc]
      split_ifs <;> simp_all [Ne.symm hc]
    exact absurd (h ▸ by simp) hnone

theorem getLast?_of_quote {s u w : Text} (h : s.flatMap quoteChar = u ++ '"' :: w) :
    u.getLast? = some '\\' := by
  induction s generalizing u with
  | nil => simp at h
  | cons c s ih =>
    rw [List.flatMap_cons] at h
    rcases List.append_eq_append_iff.mp h with ⟨t, rfl, ht⟩ | ⟨t, hc, ht⟩
    · rw [List.getLast?_append, ih ht]
      rfl
    · cases t with
      | nil => cases ih (u := []) ht.symm
      | cons d t =>
        obtain ⟨rfl, rfl⟩ := List.cons.inj ht
        exact getLast?_of_quoteChar hc

theorem toldApart_quoted (s : Text) : ToldApart leads quoted s := by
  refine toldApart_of_cut (fun s s' h => ?_) (fun s s' u hu h => ⟨'\\', ?_, by decide⟩) s
  · exact flatMap_quoteChar_injective (List.append_cancel_right (List.cons.inj h).2)
  · cases u with
    | nil => exact absurd rfl hu
    | cons c u =>
      have hbody := (List.cons.inj h).2.trans
        (List.append_assoc u ('"' :: s'.flatMap quoteChar) ['"']).symm
      have hlast := getLast?_of_quote (List.append_cancel_right hbody)
      rw [List.getLast?_cons, hlast]
      rfl

-- ---
-- Values
-- ---

def kindOf (c : Char) : Nat :=
  if c = 'l' then 0 else if c = 'e' then 1 else if c = '"' then 2
  else if c = ']' then 3 else if c = '\x7d' then 4 else 5

def PlainValue.kind : PlainValue → Nat
  | .null => 0
  | .bool _ => 1
  | .str _ => 2
  | .arr _ => 3
  | .obj _ => 4
  | .num _ => 5

theorem toldApart_number (n : Numeral) : ToldApart leads Numeral.text n := by
  refine toldApart_of_letters (fun n n' h => ?_) (fun n c hc hleads => ?_) n
  · cases n
    cases n'
    cases h
    rfl
  · have hno : ∀ d ∈ leads, d.isDigit = false ∧ d ∉ ['-', '+', '.', 'e'] := by
      simp [leads]
    rcases n.letters c hc with hdigit | hsign
    · rw [(hno c hleads).1] at hdigit
      cases hdigit
    · exact (hno c hleads).2 hsign

def boolText (b : Bool) : Text := stringify (.bool b)

theorem toldApart_bool (b : Bool) : ToldApart leads boolText b := by
  refine toldApart_of_letters (fun b b' h => ?_) (fun b => ?_) b
  · cases b <;> cases b' <;> first | rfl | cases h
  · cases b <;> simp [boolText, stringify, leads]

/-- The last character tells the kind of the value, and leads to none. -/
theorem getLast?_stringify (v : PlainValue) :
    ∃ c ∈ (stringify v).getLast?, kindOf c = v.kind ∧ c ∉ leads := by
  cases v with
  | null => exact ⟨'l', rfl, rfl, by decide⟩
  | bool b => cases b <;> exact ⟨'e', rfl, rfl, by decide⟩
  | num n =>
    obtain ⟨c, hc, hdigit⟩ := n.last
    have hne : ∀ d ∈ ['l', 'e', '"', ']', '\x7d', ':', ',', '[', '\x7b'], c ≠ d := by
      rintro d hd rfl
      have hno : ∀ d ∈ ['l', 'e', '"', ']', '\x7d', ':', ',', '[', '\x7b'],
          d.isDigit = false := by simp
      rw [hno c hd] at hdigit
      cases hdigit
    simp only [List.forall_mem_cons] at hne
    exact ⟨c, hc, by simp [kindOf, PlainValue.kind, hne], by simp [leads, hne]⟩
  | str s => exact ⟨'"', by simp [stringify, quoted, List.getLast?_cons], rfl, by decide⟩
  | arr items => exact ⟨']', by simp [stringify, List.getLast?_cons], rfl, by decide⟩
  | obj members => exact ⟨'\x7d', by simp [stringify, List.getLast?_cons], rfl, by decide⟩

theorem kind_eq {v v' : PlainValue} {r r' : Text} (h : r ++ stringify v = r' ++ stringify v') :
    v.kind = v'.kind := by
  obtain ⟨c, hc, hkind, -⟩ := getLast?_stringify v
  obtain ⟨c', hc', hkind', -⟩ := getLast?_stringify v'
  have hlast := congrArg List.getLast? h
  rw [List.getLast?_append, List.getLast?_append, hc, hc'] at hlast
  rw [← hkind, ← hkind', Option.some.inj hlast]

theorem toldApart_member {member : Text × PlainValue} (h : ToldApart leads stringify member.2) :
    ToldApart leads memberText member := by
  intro other r r' hr hr' heq
  have htext (r : Text) (member : Text × PlainValue) :
      r ++ memberText member = r ++ quoted member.1 ++ [':'] ++ stringify member.2 := by
    simp [memberText]
  rw [htext, htext] at heq
  have hcolon : ':' ∈ leads := by decide
  obtain ⟨hsecond, hkey⟩ := h _ _ _ (leads_concat hcolon _) (leads_concat hcolon _) heq
  obtain ⟨hfirst, rfl⟩ := toldApart_quoted _ _ _ _ hr hr' (List.append_cancel_right hkey)
  exact ⟨Prod.ext hfirst hsecond, rfl⟩

theorem closed_stringify : Closed leads stringify := by
  intro v
  obtain ⟨c, hc, -, hends⟩ := getLast?_stringify v
  exact ⟨c, hc, hends⟩

theorem closed_memberText : Closed leads memberText := by
  intro member
  obtain ⟨c, hc, -, hends⟩ := getLast?_stringify member.2
  refine ⟨c, ?_, hends⟩
  rw [memberText, List.append_cons, List.getLast?_append, hc]
  rfl

mutual
/-- The text of a value is told apart from what stands before it. -/
theorem toldApart_stringify : ∀ v : PlainValue, ToldApart leads stringify v
  | .null => fun v r r' _ _ h => by
      cases v with
      | null => exact ⟨rfl, List.append_cancel_right h⟩
      | _ => exact absurd (kind_eq h) (by simp [PlainValue.kind])
  | .bool b => fun v r r' hr hr' h => by
      cases v with
      | bool b' =>
        obtain ⟨rfl, rfl⟩ := toldApart_bool b b' r r' hr hr' h
        exact ⟨rfl, rfl⟩
      | _ => exact absurd (kind_eq h) (by simp [PlainValue.kind])
  | .num n => fun v r r' hr hr' h => by
      cases v with
      | num n' =>
        obtain ⟨rfl, rfl⟩ := toldApart_number n n' r r' hr hr' h
        exact ⟨rfl, rfl⟩
      | _ => exact absurd (kind_eq h) (by simp [PlainValue.kind])
  | .str s => fun v r r' hr hr' h => by
      cases v with
      | str s' =>
        obtain ⟨rfl, rfl⟩ := toldApart_quoted s s' r r' hr hr' h
        exact ⟨rfl, rfl⟩
      | _ => exact absurd (kind_eq h) (by simp [PlainValue.kind])
  | .arr items => fun v r r' _ _ h => by
      cases v with
      | arr items' =>
        simp only [stringify, itemTexts_eq, ← List.append_assoc, List.append_cancel_right_eq] at h
        obtain ⟨rfl, rfl⟩ := toldApart_list (o := '[') (c := ',') (by decide) (by decide)
          (by decide) closed_stringify (toldApart_items items) (by simpa using h)
        exact ⟨rfl, rfl⟩
      | _ => exact absurd (kind_eq h) (by simp [PlainValue.kind])
  | .obj members => fun v r r' _ _ h => by
      cases v with
      | obj members' =>
        simp only [stringify, memberTexts_eq, ← List.append_assoc, List.append_cancel_right_eq] at h
        obtain ⟨rfl, rfl⟩ := toldApart_list (o := '\x7b') (c := ',') (by decide) (by decide)
          (by decide) closed_memberText (toldApart_members members) (by simpa using h)
        exact ⟨rfl, rfl⟩
      | _ => exact absurd (kind_eq h) (by simp [PlainValue.kind])
theorem toldApart_items : ∀ items : List PlainValue, ∀ v ∈ items, ToldApart leads stringify v
  | [], _, hv => nomatch hv
  | v :: items, _, hw => by
    rcases List.mem_cons.mp hw with heq | hw
    · exact heq ▸ toldApart_stringify v
    · exact toldApart_items items _ hw
theorem toldApart_members : ∀ members : List (Text × PlainValue),
    ∀ member ∈ members, ToldApart leads memberText member
  | [], _, hmember => nomatch hmember
  | (k, v) :: members, _, hmember => by
    rcases List.mem_cons.mp hmember with heq | hmember
    · exact heq ▸ toldApart_member (toldApart_stringify v)
    · exact toldApart_members members _ hmember
end

/-- A name, a colon and a JSON text tell the name and the value. -/
theorem colon_stringify_inj {name name' : Text} {v v' : PlainValue}
    (h : name ++ ':' :: stringify v = name' ++ ':' :: stringify v') : name = name' ∧ v = v' := by
  rw [List.append_cons name, List.append_cons name'] at h
  obtain ⟨rfl, hname⟩ := toldApart_stringify v v' _ _ (leads_concat (by decide) _)
    (leads_concat (by decide) _) h
  exact ⟨List.append_cancel_right hname, rfl⟩

end OpenClaw.Js
