import OpenClaw.Js.Text
import OpenClaw.Lib.OrderedSet
import Mathlib.Data.List.Sort

/-!
# Scopes

Scope lists in their normal form, with what `operator.admin` and `operator.write`
imply, and whether the scopes of a role allow the scopes that are requested for it.
-/

namespace OpenClaw.DevicePairing

open Js OrderedSet

-- ---
-- `device-auth.ts`
-- ---

def OPERATOR_ROLE : Text := "operator".toList
def OPERATOR_ADMIN_SCOPE : Text := "operator.admin".toList
def OPERATOR_READ_SCOPE : Text := "operator.read".toList
def OPERATOR_WRITE_SCOPE : Text := "operator.write".toList
def OPERATOR_SCOPE_PREFIX : Text := "operator.".toList

/-- `scope.startsWith(OPERATOR_SCOPE_PREFIX)` -/
def isOperatorScope (scope : Text) : Bool := OPERATOR_SCOPE_PREFIX.isPrefixOf scope

/-- `texts.toSorted()` -/
def toSorted (texts : List Text) : List Text :=
  texts.insertionSort fun a b => strLe (String.ofList a) (String.ofList b) = true

/-- The set of the trimmed texts that are not empty. -/
def trimmedSet (texts : List Text) : List Text := ofList ((texts.map trimChars).filter (· ≠ []))

def normalizeDeviceAuthScopes (scopes : Option (List Text)) : List Text :=
  match scopes with
  | none => []
  | some scopes =>
    let out := trimmedSet scopes
    let out :=
      if OPERATOR_ADMIN_SCOPE ∈ out then add (add out OPERATOR_READ_SCOPE) OPERATOR_WRITE_SCOPE
      else if OPERATOR_WRITE_SCOPE ∈ out then add out OPERATOR_READ_SCOPE
      else out
    toSorted out

-- ---
-- `operator-scope-compat.ts`
-- ---

def normalizeScopeList (scopes : List Text) : List Text := trimmedSet scopes

def operatorScopeSatisfied (requestedScope : Text) (granted : List Text) : Bool :=
  if OPERATOR_ADMIN_SCOPE ∈ granted ∧ isOperatorScope requestedScope then true
  else if requestedScope = OPERATOR_READ_SCOPE then OPERATOR_READ_SCOPE ∈ granted || OPERATOR_WRITE_SCOPE ∈ granted
  else if requestedScope = OPERATOR_WRITE_SCOPE then OPERATOR_WRITE_SCOPE ∈ granted
  else requestedScope ∈ granted

def roleScopesAllow (role : Text) (requestedScopes allowedScopes : List Text) : Bool :=
  let requested := normalizeScopeList requestedScopes
  if requested.length = 0 then true
  else
    let allowed := normalizeScopeList allowedScopes
    if allowed.length = 0 then false
    else if trimChars role ≠ OPERATOR_ROLE then requested.all (· ∈ allowed)
    else requested.all (operatorScopeSatisfied · allowed)

def resolveMissingRequestedScope (role : Text) (requestedScopes allowedScopes : List Text) : Option Text :=
  requestedScopes.find? fun scope => !roleScopesAllow role [scope] allowedScopes

-- ---
-- What they contain
-- ---

@[simp] theorem mem_toSorted {texts : List Text} : scope ∈ toSorted texts ↔ scope ∈ texts :=
  (List.perm_insertionSort _ _).mem_iff

@[simp] theorem trimmedSet_nil : trimmedSet [] = [] := rfl

theorem mem_trimmedSet {texts : List Text} :
    scope ∈ trimmedSet texts ↔ scope ≠ [] ∧ ∃ text ∈ texts, trimChars text = scope := by
  simp only [trimmedSet, mem_ofList, List.mem_filter, List.mem_map, decide_eq_true_eq]
  exact and_comm

@[simp] theorem mem_trimmedSet_trimmedSet {texts : List Text} :
    scope ∈ trimmedSet (trimmedSet texts) ↔ scope ∈ trimmedSet texts := by
  constructor
  · intro h
    obtain ⟨-, text, htext, rfl⟩ := mem_trimmedSet.1 h
    obtain ⟨-, raw, -, rfl⟩ := mem_trimmedSet.1 htext
    rwa [trimChars_trimChars]
  · intro h
    obtain ⟨hne, raw, hraw, rfl⟩ := mem_trimmedSet.1 h
    exact mem_trimmedSet.2 ⟨hne, _, h, trimChars_trimChars raw⟩

theorem mem_trimmedSet_flatMap {items : List (Option (List Text))} :
    scope ∈ trimmedSet (items.flatMap (·.getD [])) ↔ ∃ item ∈ items, scope ∈ trimmedSet (item.getD []) := by
  simp only [mem_trimmedSet, List.mem_flatMap]
  grind

theorem mem_normalizeDeviceAuthScopes {scopes : Option (List Text)} :
    scope ∈ normalizeDeviceAuthScopes scopes ↔
      scope ∈ trimmedSet (scopes.getD []) ∨
      scope = OPERATOR_READ_SCOPE ∧
        (OPERATOR_ADMIN_SCOPE ∈ trimmedSet (scopes.getD []) ∨ OPERATOR_WRITE_SCOPE ∈ trimmedSet (scopes.getD [])) ∨
      scope = OPERATOR_WRITE_SCOPE ∧ OPERATOR_ADMIN_SCOPE ∈ trimmedSet (scopes.getD []) := by
  cases scopes with
  | none => simp [normalizeDeviceAuthScopes]
  | some scopes =>
    simp only [normalizeDeviceAuthScopes, mem_toSorted, Option.getD_some]
    by_cases hadmin : OPERATOR_ADMIN_SCOPE ∈ trimmedSet scopes
    · simp [hadmin, or_assoc]
    · by_cases hwrite : OPERATOR_WRITE_SCOPE ∈ trimmedSet scopes
      · simp [hadmin, hwrite]
      · simp [hadmin, hwrite]

/-- A scope for a role is satisfied by what is granted. -/
def ScopeSatisfied (role : Text) (granted : List Text) (scope : Text) : Prop :=
  if trimChars role ≠ OPERATOR_ROLE then scope ∈ granted else operatorScopeSatisfied scope granted

theorem roleScopesAllow_iff {role : Text} {requestedScopes allowedScopes : List Text} :
    roleScopesAllow role requestedScopes allowedScopes ↔
      ∀ scope ∈ trimmedSet requestedScopes, ScopeSatisfied role (trimmedSet allowedScopes) scope := by
  unfold roleScopesAllow normalizeScopeList ScopeSatisfied
  cases hrequested : trimmedSet requestedScopes with
  | nil => simp
  | cons scope requested =>
    cases hallowed : trimmedSet allowedScopes with
    | nil =>
      have hnone : operatorScopeSatisfied scope [] = false := by simp [operatorScopeSatisfied]
      have hfalse : ¬ ∀ other ∈ scope :: requested,
          if trimChars role ≠ OPERATOR_ROLE then other ∈ [] else operatorScopeSatisfied other [] = true := by
        intro hall
        have hscope := hall scope List.mem_cons_self
        rw [hnone] at hscope
        split at hscope <;> simp at hscope
      exact ⟨fun h => absurd h (by simp), fun h => absurd h hfalse⟩
    | cons first allowed => by_cases hrole : trimChars role ≠ OPERATOR_ROLE <;> simp [hrole]

theorem operatorScopeSatisfied_mono {granted granted' : List Text} (hsub : ∀ scope ∈ granted, scope ∈ granted')
    (h : operatorScopeSatisfied scope granted) : operatorScopeSatisfied scope granted' := by
  unfold operatorScopeSatisfied at *
  grind

theorem ScopeSatisfied.mono {role : Text} {granted granted' : List Text} (hsub : ∀ scope ∈ granted, scope ∈ granted')
    (h : ScopeSatisfied role granted scope) : ScopeSatisfied role granted' scope := by
  unfold ScopeSatisfied at *
  split at h
  case isTrue hrole =>
    rw [if_pos hrole]
    exact hsub scope h
  case isFalse hrole =>
    rw [if_neg hrole]
    exact operatorScopeSatisfied_mono hsub h

end OpenClaw.DevicePairing
