import OpenClaw.Config.WriteBack

/-!
# References that survive a write

Where a variable is missing the reader can be told to go on: it keeps the reference in
the text and gives a warning. A config that is written back as it was read then goes
through `restoreEnvVarRefs`, which puts back the references that it can resolve.
-/

namespace OpenClaw.Config

open Js (Text)

-- ---
-- Reading with `onMissing`
-- ---

structure EnvSubstitutionWarning where
  varName : Text
  configPath : Text
  deriving DecidableEq

namespace OnMissing

/-- `env[name]`, where an empty text counts as missing. -/
def envValue (env : Env) (name : Text) : Option Text := (env name).filter (· ≠ [])

/-- The loop of `substituteString`, with the warnings that are given. -/
def substituteChars (env : Env) (configPath : Text) :
    Nat → Text → Text × List EnvSubstitutionWarning
  | _, [] => ([], [])
  | skipped + 1, _ :: text => substituteChars env configPath skipped text
  | 0, c :: text =>
    match parseEnvToken (c :: text) with
    | none =>
      let rest := substituteChars env configPath 0 text
      (c :: rest.1, rest.2)
    | some token =>
      let rest := substituteChars env configPath (token.length - 1) text
      if token.escaped then (reference token.name ++ rest.1, rest.2)
      else match envValue env token.name with
        | some value => (value ++ rest.1, rest.2)
        | none => (reference token.name ++ rest.1, ⟨token.name, configPath⟩ :: rest.2)

def substituteString (env : Env) (value configPath : Text) : Text × List EnvSubstitutionWarning :=
  if '$' ∈ value then substituteChars env configPath 0 value else (value, [])

mutual
def substituteAny (env : Env) : ConfigValue → Text → ConfigValue × List EnvSubstitutionWarning
  | .str value, path =>
    let result := substituteString env value path
    (.str result.1, result.2)
  | .arr items, path =>
    let result := substituteItems env items path 0
    (.arr result.1, result.2)
  | .obj fields, path =>
    let result := substituteFields env fields path
    (.obj result.1, result.2)
  | value, _ => (value, [])
def substituteItems (env : Env) :
    List ConfigValue → Text → Nat → List ConfigValue × List EnvSubstitutionWarning
  | [], _, _ => ([], [])
  | item :: items, path, index =>
    let value := substituteAny env item (itemPath path index)
    let rest := substituteItems env items path (index + 1)
    (value.1 :: rest.1, value.2 ++ rest.2)
def substituteFields (env : Env) : Fields → Text → Fields × List EnvSubstitutionWarning
  | [], _ => ([], [])
  | (key, child) :: fields, path =>
    let value := substituteAny env child (joinPath path key)
    let rest := substituteFields env fields path
    (setMember key value.1 rest.1, value.2 ++ rest.2)
end

/-- The config with what is set put in, and the warnings of what is not. -/
def resolveConfigEnvVars (env : Env) (config : ConfigValue) :
    ConfigValue × List EnvSubstitutionWarning := substituteAny env config []

end OnMissing

-- ---
-- Pieces
-- ---

/-- What a text is made of for either scanner. -/
inductive Piece
  | char (c : Char)
  | escape (name : Text)
  | ref (name : Text)
  deriving DecidableEq

namespace Piece

def ofToken (token : EnvToken) : Piece :=
  if token.escaped then .escape token.name else .ref token.name

/-- How the piece is written. -/
def source : Piece → Text
  | .char c => [c]
  | .escape name => '$' :: reference name
  | .ref name => reference name

def Missing (env : Env) : Piece → Prop
  | .ref name => OnMissing.envValue env name = none
  | _ => False

instance decidableMissing (env : Env) : ∀ piece, Decidable (Missing env piece)
  | .ref _ => inferInstanceAs (Decidable (_ = none))
  | .char _ => .isFalse id
  | .escape _ => .isFalse id

/-- What the piece stands for; a missing variable stands for itself. -/
def text (env : Env) : Piece → Text
  | .char c => [c]
  | .escape name => reference name
  | .ref name => (OnMissing.envValue env name).getD (reference name)

end Piece

section
variable {env : Env} {configPath : Text}

@[simp] theorem Piece.not_missing_escape : ¬(Piece.escape name).Missing env := id
@[simp] theorem Piece.missing_ref :
    (Piece.ref name).Missing env ↔ OnMissing.envValue env name = none := Iff.rfl

@[simp] theorem Piece.text_char : (Piece.char c).text env = [c] := rfl
@[simp] theorem Piece.text_escape : (Piece.escape name).text env = reference name := rfl

theorem Piece.text_missing (h : OnMissing.envValue env name = none) :
    (Piece.ref name).text env = reference name := by
  simp [Piece.text, h]

theorem Piece.text_set (h : OnMissing.envValue env name = some value) :
    (Piece.ref name).text env = value := by
  simp [Piece.text, h]

/-- The warning for a piece. -/
def Piece.warning? (env : Env) (configPath : Text) : Piece → Option EnvSubstitutionWarning
  | .ref name =>
    if OnMissing.envValue env name = none then some ⟨name, configPath⟩ else none
  | _ => none

@[simp] theorem Piece.warning?_char : (Piece.char c).warning? env configPath = none := rfl
@[simp] theorem Piece.warning?_escape : (Piece.escape name).warning? env configPath = none := rfl
@[simp] theorem Piece.warning?_ref :
    (Piece.ref name).warning? env configPath =
      if OnMissing.envValue env name = none then some ⟨name, configPath⟩ else none := rfl

end

theorem Piece.ofToken_escaped (h : token.escaped = true) : ofToken token = .escape token.name := by
  simp [ofToken, h]

theorem Piece.ofToken_substitution (h : token.escaped = false) :
    ofToken token = .ref token.name := by
  simp [ofToken, h]

/-- The pieces behind the first `skipped` characters. -/
def piecesFrom : Nat → Text → List Piece
  | _, [] => []
  | skipped + 1, _ :: text => piecesFrom skipped text
  | 0, c :: text =>
    match parseEnvToken (c :: text) with
    | none => .char c :: piecesFrom 0 text
    | some token => .ofToken token :: piecesFrom (token.length - 1) text

def pieces (text : Text) : List Piece := piecesFrom 0 text

-- ---
-- The scanners by their pieces
-- ---

theorem OnMissing.substituteChars_eq (env : Env) (configPath : Text) (skipped : Nat) (text : Text) :
    OnMissing.substituteChars env configPath skipped text =
      ((piecesFrom skipped text).flatMap (Piece.text env),
        (piecesFrom skipped text).filterMap (Piece.warning? env configPath)) := by
  induction text generalizing skipped with
  | nil => cases skipped <;> rfl
  | cons c text ih =>
    cases skipped with
    | succ skipped => exact ih skipped
    | zero =>
      rw [OnMissing.substituteChars, piecesFrom]
      cases htoken : parseEnvToken (c :: text) with
      | none => simp [ih, List.filterMap_cons]
      | some token =>
        cases hescaped : token.escaped with
        | true => simp [ih, hescaped, Piece.ofToken_escaped hescaped, List.filterMap_cons]
        | false =>
          cases hvalue : OnMissing.envValue env token.name with
          | none =>
            simp [ih, hescaped, hvalue, Piece.ofToken_substitution hescaped,
              Piece.text_missing hvalue]
          | some value =>
            simp [ih, hescaped, hvalue, Piece.ofToken_substitution hescaped,
              Piece.text_set hvalue]

theorem chunk_ofToken (env : Env) (token : EnvToken) :
    (if token.escaped then some (reference token.name) else (env token.name).filter (· ≠ [])) =
      if (Piece.ofToken token).Missing env then none
      else some ((Piece.ofToken token).text env) := by
  cases hescaped : token.escaped with
  | true => simp [Piece.ofToken_escaped hescaped]
  | false =>
    rw [Piece.ofToken_substitution hescaped]
    change OnMissing.envValue env token.name = _
    cases hvalue : OnMissing.envValue env token.name with
    | none => simp [hvalue]
    | some value => simp [hvalue, Piece.text_set hvalue]

/-- Without `onMissing` the scanner stops at a missing variable. -/
theorem substituteChars_missing (h : piece ∈ piecesFrom skipped text)
    (hmissing : piece.Missing env) :
    substituteChars env skipped text = none := by
  induction text generalizing skipped with
  | nil => cases skipped <;> cases h
  | cons c text ih =>
    cases skipped with
    | succ skipped => exact ih h
    | zero =>
      rw [substituteChars]
      rw [piecesFrom] at h
      cases htoken : parseEnvToken (c :: text) with
      | none =>
        rw [htoken] at h
        obtain rfl | h := List.mem_cons.mp h
        · cases hmissing
        · simp [ih h]
      | some token =>
        rw [htoken] at h
        simp only [chunk_ofToken]
        obtain rfl | h := List.mem_cons.mp h
        · simp [hmissing]
        · simp [ih h]

theorem substituteChars_set (h : ∀ piece ∈ piecesFrom skipped text, ¬piece.Missing env) :
    substituteChars env skipped text =
      some ((piecesFrom skipped text).flatMap (Piece.text env)) := by
  induction text generalizing skipped with
  | nil => cases skipped <;> rfl
  | cons c text ih =>
    cases skipped with
    | succ skipped => exact ih h
    | zero =>
      rw [substituteChars]
      rw [piecesFrom] at h ⊢
      cases htoken : parseEnvToken (c :: text) with
      | none =>
        rw [htoken] at h
        simp [ih (List.forall_mem_cons.mp h).2]
      | some token =>
        rw [htoken] at h
        obtain ⟨hhead, hrest⟩ := List.forall_mem_cons.mp h
        simp only [chunk_ofToken, hhead, if_false, ih hrest]
        simp

theorem nameAt_of_no_ref (h : hasEnvVarRef ('$' :: '\x7b' :: text) = false) :
    nameAt text = none := by
  simp only [hasEnvVarRef, Bool.or_eq_false_iff, parseEnvToken] at h
  cases hname : nameAt text with
  | none => rfl
  | some name => simp [hname] at h

/-- An escape hides a reference, which starts at its second character. -/
theorem parseEnvToken_of_no_ref (h : hasEnvVarRef (c :: text) = false) :
    parseEnvToken (c :: text) = none := by
  unfold parseEnvToken
  split
  · rename_i rest heq
    obtain ⟨rfl, rfl⟩ := List.cons.inj heq
    have htail : hasEnvVarRef ('$' :: '\x7b' :: rest) = false := by
      rw [hasEnvVarRef, Bool.or_eq_false_iff] at h
      exact h.2
    simp [nameAt_of_no_ref htail]
  · rename_i rest heq
    obtain ⟨rfl, rfl⟩ := List.cons.inj heq
    simp [nameAt_of_no_ref h]
  · rfl

/-- A text in which no reference is seen is made of characters. -/
theorem pieces_of_no_ref (h : hasEnvVarRef text = false) : pieces text = text.map .char := by
  induction text with
  | nil => rfl
  | cons c text ih =>
    have htail : hasEnvVarRef text = false := by
      simp only [hasEnvVarRef, Bool.or_eq_false_iff] at h
      exact h.2
    rw [pieces, piecesFrom, parseEnvToken_of_no_ref h]
    exact congrArg _ (ih htail)

theorem hasEnvVarRef_of_no_dollar (h : '$' ∉ text) : hasEnvVarRef text = false := by
  induction text with
  | nil => rfl
  | cons c text ih =>
    have hc : c ≠ '$' := fun hc => h (hc ▸ List.mem_cons_self)
    have hnone : parseEnvToken (c :: text) = none := by
      unfold parseEnvToken
      split
      · rename_i heq
        exact absurd (List.cons.inj heq).1 hc
      · rename_i heq
        exact absurd (List.cons.inj heq).1 hc
      · rfl
    simp [hasEnvVarRef, hnone, ih fun htail => h (List.mem_cons_of_mem _ htail)]

theorem chars_text (env : Env) (text : Text) :
    (text.map Piece.char).flatMap (Piece.text env) = text := by
  induction text with
  | nil => rfl
  | cons c text ih => exact congrArg (c :: ·) ih

/-- The test for a dollar sign only saves work. -/
theorem OnMissing.substituteString_text (env : Env) (value configPath : Text) :
    (OnMissing.substituteString env value configPath).1 =
      (pieces value).flatMap (Piece.text env) := by
  unfold OnMissing.substituteString
  split
  case isTrue => rw [OnMissing.substituteChars_eq, pieces]
  case isFalse h => rw [pieces_of_no_ref (hasEnvVarRef_of_no_dollar h), chars_text]

-- ---
-- A string that comes back
-- ---

/-- The text refers to a variable that is not set. -/
def MissesVariable (env : Env) (text : Text) : Prop := ∃ piece ∈ pieces text, piece.Missing env

/-- The values of the variables that are set, and the texts of the escapes, spell the text
itself once they are in place. -/
def SpellsItself (env : Env) (text : Text) : Prop := (pieces text).flatMap (Piece.text env) = text

theorem restoreString_iff_spells (env : Env) (value configPath : Text) :
    restoreString env (OnMissing.substituteString env value configPath).1 value = value ↔
      (MissesVariable env value → SpellsItself env value) := by
  rw [OnMissing.substituteString_text]
  unfold restoreString tryResolveString
  by_cases hmisses : MissesVariable env value
  · obtain ⟨piece, hpiece, hmissing⟩ := id hmisses
    simp [substituteChars_missing hpiece hmissing, hmisses, SpellsItself]
  · have hset : ∀ piece ∈ piecesFrom 0 value, ¬piece.Missing env :=
      fun piece hpiece hmissing => hmisses ⟨piece, hpiece, hmissing⟩
    refine iff_of_true ?_ fun h => absurd h hmisses
    cases href : hasEnvVarRef value with
    | true => simp [substituteChars_set hset, pieces]
    | false => rw [pieces_of_no_ref href, chars_text]; simp

end OpenClaw.Config

/-!
# What comes back from a write

A config that was read with warnings and is written back unchanged. A string that misses
a variable is not restored, so that it comes back only as far as reading left it alone.
-/

namespace OpenClaw.Config

open Js (Text)

-- ---
-- A config that comes back
-- ---

mutual
/-- No key is `__proto__`, and every string that misses a variable spells itself. -/
def ConfigValue.Preserved (env : Env) : ConfigValue → Prop
  | .str value => MissesVariable env value → SpellsItself env value
  | .arr items => PreservedItems env items
  | .obj fields => PreservedFields env fields
  | _ => True
def PreservedItems (env : Env) : List ConfigValue → Prop
  | [] => True
  | item :: items => item.Preserved env ∧ PreservedItems env items
def PreservedFields (env : Env) : Fields → Prop
  | [] => True
  | (key, value) :: fields =>
    key ≠ "__proto__".toList ∧ value.Preserved env ∧ PreservedFields env fields
end

theorem setMember_length (key : Text) (value : ConfigValue) (result : Fields) :
    (setMember key value result).length ≤ result.length + 1 := by
  unfold setMember
  split
  · exact Nat.le_succ _
  · exact le_rfl

theorem restoreFields_length (env : Env) (incoming parsed : Fields) :
    (restoreFields env incoming parsed).length ≤ incoming.length := by
  induction incoming with
  | nil => exact le_rfl
  | cons field incoming ih =>
    obtain ⟨key, value⟩ := field
    rw [restoreFields]
    exact (setMember_length _ _ _).trans (Nat.succ_le_succ ih)

theorem OnMissing.substituteFields_length (env : Env) (fields : Fields) (path : Text) :
    (OnMissing.substituteFields env fields path).1.length ≤ fields.length := by
  induction fields with
  | nil => exact le_rfl
  | cons field fields ih =>
    obtain ⟨key, value⟩ := field
    rw [OnMissing.substituteFields]
    exact (setMember_length _ _ _).trans (Nat.succ_le_succ ih)

mutual
/-- What is read and written back comes back exactly where it is preserved. -/
theorem restoreEnvVarRefs_substituteAny (env : Env) :
    ∀ (value : ConfigValue) (path : Text), value.DistinctKeys →
      (restoreEnvVarRefs env (OnMissing.substituteAny env value path).1 value = value ↔
        value.Preserved env)
  | .str value, path, _ => by
    simp only [OnMissing.substituteAny, restoreEnvVarRefs, ConfigValue.str.injEq,
      ConfigValue.Preserved]
    exact restoreString_iff_spells env value path
  | .arr items, path, h => by
    simp only [OnMissing.substituteAny, restoreEnvVarRefs, ConfigValue.arr.injEq,
      ConfigValue.Preserved]
    exact restoreItems_substituteItems env items path 0 h
  | .obj fields, path, h => by
    simp only [OnMissing.substituteAny, restoreEnvVarRefs, ConfigValue.obj.injEq,
      ConfigValue.Preserved]
    have hown (field) (hfield : field ∈ fields) : fields.lookup field.1 = some field.2 :=
      Members.lookup_of_mem h.1 hfield
    exact restoreFields_substituteFields env fields fields path h.2 hown
  | .undefined, _, _ | .null, _, _ | .bool _, _, _ | .num _, _, _ => by
    simp [OnMissing.substituteAny, restoreEnvVarRefs, ConfigValue.Preserved]
theorem restoreItems_substituteItems (env : Env) :
    ∀ (items : List ConfigValue) (path : Text) (index : Nat), DistinctItems items →
      (restoreItems env (OnMissing.substituteItems env items path index).1 items = items ↔
        PreservedItems env items)
  | [], _, _, _ => by simp [OnMissing.substituteItems, restoreItems, PreservedItems]
  | item :: items, path, index, h => by
    simp only [OnMissing.substituteItems, restoreItems, List.cons.injEq, PreservedItems]
    rw [restoreEnvVarRefs_substituteAny env item (itemPath path index) h.1,
      restoreItems_substituteItems env items path (index + 1) h.2]
theorem restoreFields_substituteFields (env : Env) :
    ∀ (fields parsed : Fields) (path : Text), DistinctFields fields →
      (∀ field ∈ fields, parsed.lookup field.1 = some field.2) →
      (restoreFields env (OnMissing.substituteFields env fields path).1 parsed = fields ↔
        PreservedFields env fields)
  | [], _, _, _, _ => by simp [OnMissing.substituteFields, restoreFields, PreservedFields]
  | (key, value) :: fields, parsed, path, h, hparsed => by
    obtain ⟨hhead, hrest⟩ := List.forall_mem_cons.mp hparsed
    by_cases hproto : key = "__proto__".toList
    · refine iff_of_false ?_ fun hpreserved => hpreserved.1 hproto
      intro heq
      have hlength := congrArg List.length heq
      have hrestored := restoreFields_length env
        (OnMissing.substituteFields env ((key, value) :: fields) path).1 parsed
      rw [OnMissing.substituteFields, setMember, if_pos hproto] at hrestored hlength
      dsimp only at hrestored hlength
      have hsubstituted := OnMissing.substituteFields_length env fields path
      rw [List.length_cons] at hlength
      omega
    · rw [OnMissing.substituteFields, setMember, if_neg hproto, restoreFields, setMember,
        if_neg hproto]
      simp only [hhead, List.cons.injEq, Prod.mk.injEq, true_and, PreservedFields, ne_eq, hproto,
        not_false_eq_true]
      rw [restoreEnvVarRefs_substituteAny env value (joinPath path key) h.1,
        restoreFields_substituteFields env fields parsed path h.2 hrest]
end

theorem restoreEnvVarRefs_resolveConfigEnvVars (env : Env) (parsed : ConfigValue)
    (h : parsed.DistinctKeys) :
    restoreEnvVarRefs env (OnMissing.resolveConfigEnvVars env parsed).1 parsed = parsed ↔
      parsed.Preserved env :=
  restoreEnvVarRefs_substituteAny env parsed [] h

def mixedConfig : ConfigValue := .str "$$\x7bA\x7d $\x7bMISSING\x7d".toList

theorem restoreEnvVarRefs_resolveConfigEnvVars_mixed :
    restoreEnvVarRefs (fun _ => none) (OnMissing.resolveConfigEnvVars (fun _ => none) mixedConfig).1
        mixedConfig = mixedConfig ↔
      mixedConfig.Preserved fun _ => none :=
  restoreEnvVarRefs_resolveConfigEnvVars _ mixedConfig trivial

/-- The escape is lost where the text beside it misses a variable. -/
theorem not_restoreEnvVarRefs_resolveConfigEnvVars :
    ¬∀ (env : Env) (parsed : ConfigValue), parsed.DistinctKeys →
      restoreEnvVarRefs env (OnMissing.resolveConfigEnvVars env parsed).1 parsed = parsed := by
  intro hall
  have hmixed := hall (fun _ => none) mixedConfig trivial
  have hwritten : restoreEnvVarRefs (fun _ => none)
      (OnMissing.resolveConfigEnvVars (fun _ => none) mixedConfig).1 mixedConfig =
        .str "$\x7bA\x7d $\x7bMISSING\x7d".toList := by
    rfl
  rw [hwritten] at hmixed
  have hshorter := congrArg (fun value => (value.str?.getD []).length) hmixed
  revert hshorter
  decide

end OpenClaw.Config
