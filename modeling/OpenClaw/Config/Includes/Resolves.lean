import OpenClaw.Config.Includes

/-!
# What resolving includes comes to

Resolving succeeds just where no directive that is reached is at fault, and a directive is at
fault for its own chain of files only: a file may be included on several branches. Where
resolving fails, it is the first fault that is thrown.
-/

namespace OpenClaw.Config.Includes

open Js (Text)
open Members

-- ---
-- Faults
-- ---

/-- The faults of an item of a directive, with those of the file it names. -/
def itemFaults (loadFaults : Text → List Thrown) : ConfigValue → List Thrown
  | .str includePath => loadFaults includePath
  | item => [throwShowing item (.invalidItem item)]

/-- The faults of a directive, with those of the files it names. -/
def includeFaults (loadFaults : Text → List Thrown) : ConfigValue → List Thrown
  | .str includePath => loadFaults includePath
  | .arr items => items.flatMap (itemFaults loadFaults)
  | value => [throwShowing value (.invalidValue value)]

/-- What an item or a text in a directive names is an object, where it has no faults. -/
def namesObject (loadsObject : Text → Bool) : ConfigValue → Bool
  | .str includePath => loadsObject includePath
  | _ => false

/-- What a directive includes is an object, where it has no faults. The last item decides. -/
def includesObject (loadsObject : Text → Bool) : ConfigValue → Bool
  | .arr items => (items.getLast?.map (namesObject loadsObject)).getD true
  | value => namesObject loadsObject value

/-- What a value is processed to is an object, where it has no faults. -/
def yieldsObject (loadsObject : Text → Bool) : ConfigValue → Bool
  | .obj fields =>
    match fields.lookup INCLUDE_KEY with
    | none => true
    | some includeValue => otherFields fields ≠ [] || includesObject loadsObject includeValue
  | _ => false

mutual
/-- The faults of a value in the order they are met in. -/
def faultsWith (loadFaults : Text → List Thrown) (loadsObject : Text → Bool) :
    ConfigValue → List Thrown
  | .arr items => itemsFaults loadFaults loadsObject items
  | .obj fields =>
    match fields.lookup INCLUDE_KEY with
    | none => fieldsFaults loadFaults loadsObject fields
    | some includeValue =>
      includeFaults loadFaults includeValue ++
        if otherFields fields = [] then []
        else if !includesObject loadsObject includeValue then
          [.includeError (.siblings includeValue)]
        else fieldsFaults loadFaults loadsObject fields
  | _ => []
def itemsFaults (loadFaults : Text → List Thrown) (loadsObject : Text → Bool) :
    List ConfigValue → List Thrown
  | [] => []
  | item :: rest =>
    faultsWith loadFaults loadsObject item ++ itemsFaults loadFaults loadsObject rest
/-- Of the members but a directive. -/
def fieldsFaults (loadFaults : Text → List Thrown) (loadsObject : Text → Bool) :
    Fields → List Thrown
  | [] => []
  | (key, value) :: rest =>
    if key = INCLUDE_KEY then fieldsFaults loadFaults loadsObject rest
    else faultsWith loadFaults loadsObject value ++ fieldsFaults loadFaults loadsObject rest
end

section
variable (paths : PathFunctions) (resolver : IncludeResolver)

/-- A file as it is opened at a directive, with the processor for it. -/
def openFile (processor : IncludeProcessor) (includePath : Text) :
    Except IncludeError (IncludeProcessor × ConfigValue) :=
  match processor.resolvePath paths includePath with
  | .error error => .error error
  | .ok resolvedPath =>
    if resolvedPath ∈ processor.visited then
      .error (.circular (processor.visited ++ [resolvedPath]))
    else if MAX_INCLUDE_DEPTH ≤ processor.depth then .error (.tooDeep includePath)
    else
      match processor.readFile paths resolver includePath resolvedPath with
      | .error error => .error error
      | .ok raw =>
        match parseFile resolver includePath resolvedPath raw with
        | .error error => .error error
        | .ok parsed => .ok (processor.nested paths resolvedPath, parsed)

/-- The fault of opening a file, and behind it those of what the file has. -/
def loadFaults (behind : IncludeProcessor → ConfigValue → List Thrown)
    (processor : IncludeProcessor) (includePath : Text) : List Thrown :=
  match openFile paths resolver processor includePath with
  | .error error => [.includeError error]
  | .ok (nested, parsed) => behind nested parsed

def loadsObject (yields : IncludeProcessor → ConfigValue → Bool) (processor : IncludeProcessor)
    (includePath : Text) : Bool :=
  match openFile paths resolver processor includePath with
  | .error _ => false
  | .ok (nested, parsed) => yields nested parsed

def yieldsObjectAt : Nat → IncludeProcessor → ConfigValue → Bool
  | 0, processor =>
    yieldsObject (loadsObject paths resolver (fun _ value => value.isPlainObject) processor)
  | left + 1, processor => yieldsObject (loadsObject paths resolver (yieldsObjectAt left) processor)

def faultsAt : Nat → IncludeProcessor → ConfigValue → List Thrown
  | 0, processor =>
    faultsWith (loadFaults paths resolver (fun _ _ => []) processor)
      (loadsObject paths resolver (fun _ value => value.isPlainObject) processor)
  | left + 1, processor =>
    faultsWith (loadFaults paths resolver (faultsAt left) processor)
      (loadsObject paths resolver (yieldsObjectAt paths resolver left) processor)

end

-- ---
-- The first fault
-- ---

/-- A processing gives a value where there are no faults, and else throws the first. -/
inductive Meets {α : Type} (P : α → Prop) (x : Processed α) (faults : List Thrown) : Prop
  | value (a : α) : x.result = .ok a → faults = [] → P a → Meets P x faults
  | fault (error : Thrown) : x.result = .error error → faults.head? = some error → Meets P x faults

namespace Meets

variable {α β : Type} {P : α → Prop} {Q : β → Prop}

theorem pure (h : P a) : Meets P (.pure a) [] := .value a rfl rfl h

theorem throw (error : Thrown) : Meets P (.throw error) [error] := .fault error rfl rfl

theorem bind {x : Processed α} {f : α → Processed β} (hx : Meets P x faults)
    (hf : ∀ a, P a → Meets Q (f a) rest) : Meets Q (x.bind f) (faults ++ rest) := by
  unfold Processed.bind
  cases hx with
  | value a hresult hnone ha =>
    subst hnone
    simp only [hresult, List.nil_append]
    cases hf a ha with
    | value b hb hrest hq => exact .value b hb hrest hq
    | fault error hb hrest => exact .fault error hb hrest
  | fault error hresult hhead =>
    simp only [hresult]
    refine .fault error rfl ?_
    cases faults with
    | nil => cases hhead
    | cons => exact hhead

theorem map {x : Processed α} {f : α → β} (hx : Meets P x faults) (hf : ∀ a, P a → Q (f a)) :
    Meets Q (x.map f) faults := by
  have hbind := hx.bind (f := fun a => Processed.pure (f a)) fun a ha => pure (hf a ha)
  rwa [List.append_nil] at hbind

end Meets

/-- An object, or not, as told. -/
def IsObject (object : Bool) (value : ConfigValue) : Prop := value.isPlainObject = object

theorem deepMerge_isPlainObject (target source : ConfigValue) :
    (deepMerge target source).isPlainObject = source.isPlainObject := by
  cases source with
  | arr items => cases target <;> simp [deepMerge, ConfigValue.isPlainObject]
  | obj fields => cases target <;> simp [deepMerge, ConfigValue.isPlainObject]
  | _ => simp [deepMerge]

section
variable {load : Text → Processed ConfigValue} {loadFaults : Text → List Thrown}
  {loadsObject : Text → Bool}

theorem foldl_mergeItem_meets
    (hload : ∀ includePath,
      Meets (IsObject (loadsObject includePath)) (load includePath) (loadFaults includePath))
    (items : List ConfigValue) {merged : Processed ConfigValue}
    (hmerged : Meets (IsObject object) merged faults) :
    Meets (IsObject ((items.getLast?.map (namesObject loadsObject)).getD object))
      (items.foldl (mergeItem load) merged) (faults ++ items.flatMap (itemFaults loadFaults)) := by
  induction items generalizing merged object faults with
  | nil => simpa using hmerged
  | cons item rest ih =>
    have hitem : Meets (IsObject (namesObject loadsObject item)) (mergeItem load merged item)
        (faults ++ itemFaults loadFaults item) := by
      refine hmerged.bind fun merged _ => ?_
      cases item with
      | str includePath =>
        refine (hload includePath).map fun loaded hloaded => ?_
        rw [IsObject, deepMerge_isPlainObject]
        exact hloaded
      | _ => exact .throw _
    have hrest := ih hitem
    rw [List.append_assoc] at hrest
    rw [List.foldl_cons, List.flatMap_cons, List.getLast?_cons]
    cases hlast : rest.getLast? <;> simpa [hlast] using hrest

theorem resolveInclude_meets
    (hload : ∀ includePath,
      Meets (IsObject (loadsObject includePath)) (load includePath) (loadFaults includePath))
    (value : ConfigValue) :
    Meets (IsObject (includesObject loadsObject value)) (resolveInclude load value)
      (includeFaults loadFaults value) := by
  cases value with
  | str includePath => exact hload includePath
  | arr items =>
    have hstart : Meets (IsObject true) (.pure (.obj [])) [] := .pure rfl
    exact foldl_mergeItem_meets hload items hstart
  | _ => exact .throw _

mutual
/-- What is thrown is the first fault. -/
theorem processWith_meets
    (hload : ∀ includePath,
      Meets (IsObject (loadsObject includePath)) (load includePath) (loadFaults includePath)) :
    ∀ value : ConfigValue, Meets (IsObject (yieldsObject loadsObject value))
      (processWith load value) (faultsWith loadFaults loadsObject value)
  | .arr items => (processItems_meets hload items).map fun _ _ => rfl
  | .obj fields => by
    have hfields := processFields_meets hload fields
    rw [yieldsObject, processWith, faultsWith]
    cases fields.lookup INCLUDE_KEY with
    | none => exact hfields.map fun _ _ => rfl
    | some includeValue =>
      refine (resolveInclude_meets hload includeValue).bind fun included hincluded => ?_
      by_cases hother : otherFields fields = []
      · simpa [hother] using Meets.pure hincluded
      · simp only [hother, if_false]
        rw [hincluded]
        cases includesObject loadsObject includeValue with
        | false => exact .throw _
        | true =>
          refine hfields.map fun rest _ => ?_
          rw [IsObject, deepMerge_isPlainObject]
          simp [hother, ConfigValue.isPlainObject]
  | .undefined | .null | .bool _ | .num _ | .str _ => .pure rfl
theorem processItems_meets
    (hload : ∀ includePath,
      Meets (IsObject (loadsObject includePath)) (load includePath) (loadFaults includePath)) :
    ∀ items : List ConfigValue, Meets (fun _ => True)
      (processItems load items) (itemsFaults loadFaults loadsObject items)
  | [] => .pure trivial
  | item :: rest => (processWith_meets hload item).bind fun _ _ =>
      (processItems_meets hload rest).map fun _ _ => trivial
theorem processFields_meets
    (hload : ∀ includePath,
      Meets (IsObject (loadsObject includePath)) (load includePath) (loadFaults includePath)) :
    ∀ fields : Fields, Meets (fun _ => True)
      (processFields load fields) (fieldsFaults loadFaults loadsObject fields)
  | [] => .pure trivial
  | (key, value) :: rest => by
    rw [processFields, fieldsFaults]
    split
    · exact processFields_meets hload rest
    · exact (processWith_meets hload value).bind fun _ _ =>
        (processFields_meets hload rest).map fun _ _ => trivial
end

end

section
variable {paths : PathFunctions} {resolver : IncludeResolver}

theorem loadFile_meets {process : IncludeProcessor → ConfigValue → Processed ConfigValue}
    {yields : IncludeProcessor → ConfigValue → Bool}
    {behind : IncludeProcessor → ConfigValue → List Thrown}
    (hprocess : ∀ processor value,
      Meets (IsObject (yields processor value)) (process processor value)
        (behind processor value))
    (processor : IncludeProcessor) (includePath : Text) :
    Meets (IsObject (loadsObject paths resolver yields processor includePath))
      (loadFile paths resolver process processor includePath)
      (loadFaults paths resolver behind processor includePath) := by
  unfold loadsObject loadFile loadFaults openFile
  cases processor.resolvePath paths includePath with
  | error error => exact .throw _
  | ok resolvedPath =>
    dsimp only
    by_cases hvisited : resolvedPath ∈ processor.visited
    · simp only [hvisited, if_true]
      exact .throw _
    · by_cases hdepth : MAX_INCLUDE_DEPTH ≤ processor.depth
      · simp only [hvisited, hdepth, if_true, if_false]
        exact .throw _
      · simp only [hvisited, hdepth, if_false]
        cases processor.readFile paths resolver includePath resolvedPath with
        | error error => exact .fault _ rfl rfl
        | ok raw =>
          dsimp only
          cases parseFile resolver includePath resolvedPath raw with
          | error error => exact .fault _ rfl rfl
          | ok parsed =>
            cases hprocess (processor.nested paths resolvedPath) parsed with
            | value value hresult hnone hobject => exact .value value hresult hnone hobject
            | fault error hresult hhead => exact .fault error hresult hhead

theorem processAt_meets (left : Nat) (processor : IncludeProcessor) (value : ConfigValue) :
    Meets (IsObject (yieldsObjectAt paths resolver left processor value))
      (processAt paths resolver left processor value)
      (faultsAt paths resolver left processor value) := by
  induction left generalizing processor value with
  | zero =>
    exact processWith_meets (loadFile_meets (fun _ _ => .pure rfl) processor) value
  | succ left ih => exact processWith_meets (loadFile_meets ih processor) value

end

-- ---
-- Reached files
-- ---

/-- The files that a directive names. -/
def namedPaths : ConfigValue → List Text
  | .str includePath => [includePath]
  | .arr items => items.filterMap ConfigValue.str?
  | _ => []

mutual
/-- The files that the directives of a value name. -/
def includePaths : ConfigValue → List Text
  | .arr items => itemsIncludePaths items
  | .obj fields =>
    (fields.lookup INCLUDE_KEY).elim [] namedPaths ++ fieldsIncludePaths fields
  | _ => []
def itemsIncludePaths : List ConfigValue → List Text
  | [] => []
  | item :: rest => includePaths item ++ itemsIncludePaths rest
/-- Of the members but a directive. -/
def fieldsIncludePaths : Fields → List Text
  | [] => []
  | (key, value) :: rest =>
    if key = INCLUDE_KEY then fieldsIncludePaths rest
    else includePaths value ++ fieldsIncludePaths rest
end

section
variable {here behind all : Text → List Thrown} {loadsObject : Text → Bool}

theorem itemFaults_eq_nil
    (hall : ∀ includePath, all includePath = [] ↔ here includePath = [] ∧ behind includePath = [])
    (item : ConfigValue) :
    itemFaults all item = [] ↔ itemFaults here item = [] ∧
      ∀ includePath ∈ item.str?, behind includePath = [] := by
  cases item with
  | str includePath => simpa [itemFaults, ConfigValue.str?] using hall includePath
  | _ => simp [itemFaults]

theorem includeFaults_eq_nil
    (hall : ∀ includePath, all includePath = [] ↔ here includePath = [] ∧ behind includePath = [])
    (value : ConfigValue) :
    includeFaults all value = [] ↔ includeFaults here value = [] ∧
      ∀ includePath ∈ namedPaths value, behind includePath = [] := by
  cases value with
  | str includePath => simpa [includeFaults, namedPaths] using hall includePath
  | arr items =>
    simp only [includeFaults, namedPaths, List.flatMap_eq_nil_iff, itemFaults_eq_nil hall,
      List.mem_filterMap]
    constructor
    · intro h
      refine ⟨fun item hitem => (h item hitem).1, ?_⟩
      rintro includePath ⟨item, hitem, hpath⟩
      exact (h item hitem).2 includePath hpath
    · rintro ⟨hhere, hbehind⟩ item hitem
      exact ⟨hhere item hitem, fun includePath hpath => hbehind includePath ⟨item, hitem, hpath⟩⟩
  | _ => simp [includeFaults]

theorem fieldsIncludePaths_of_alone (h : otherFields fields = []) :
    fieldsIncludePaths fields = [] := by
  induction fields with
  | nil => rfl
  | cons field rest ih =>
    obtain ⟨key, value⟩ := field
    have hkey : key = INCLUDE_KEY := by
      by_contra hne
      simp [otherFields, hne] at h
    rw [fieldsIncludePaths, if_pos hkey]
    exact ih (by simpa [otherFields, hkey] using h)

mutual
/-- A value has no faults where its own directives are without, and the files behind them. -/
theorem faultsWith_eq_nil
    (hall : ∀ includePath, all includePath = [] ↔ here includePath = [] ∧ behind includePath = []) :
    ∀ value : ConfigValue, faultsWith all loadsObject value = [] ↔
      faultsWith here loadsObject value = [] ∧
        ∀ includePath ∈ includePaths value, behind includePath = []
  | .arr items => by
    simpa only [faultsWith, includePaths] using itemsFaults_eq_nil hall items
  | .obj fields => by
    have hfields := fieldsFaults_eq_nil hall fields
    rw [faultsWith, faultsWith, includePaths]
    cases fields.lookup INCLUDE_KEY with
    | none => simpa using hfields
    | some includeValue =>
      have hinclude := includeFaults_eq_nil hall includeValue
      by_cases hother : otherFields fields = []
      · simpa [hother, fieldsIncludePaths_of_alone hother] using hinclude
      · simp only [hother, if_false]
        cases includesObject loadsObject includeValue with
        | false => simp
        | true =>
          simp only [Bool.not_true, Bool.false_eq_true, if_false, List.append_eq_nil_iff,
            Option.elim_some, List.forall_mem_append, hinclude, hfields]
          tauto
  | .undefined | .null | .bool _ | .num _ | .str _ => by simp [faultsWith, includePaths]
theorem itemsFaults_eq_nil
    (hall : ∀ includePath, all includePath = [] ↔ here includePath = [] ∧ behind includePath = []) :
    ∀ items : List ConfigValue, itemsFaults all loadsObject items = [] ↔
      itemsFaults here loadsObject items = [] ∧
        ∀ includePath ∈ itemsIncludePaths items, behind includePath = []
  | [] => by simp [itemsFaults, itemsIncludePaths]
  | item :: rest => by
    simp only [itemsFaults, itemsIncludePaths, List.append_eq_nil_iff, List.forall_mem_append,
      faultsWith_eq_nil hall item, itemsFaults_eq_nil hall rest]
    tauto
theorem fieldsFaults_eq_nil
    (hall : ∀ includePath, all includePath = [] ↔ here includePath = [] ∧ behind includePath = []) :
    ∀ fields : Fields, fieldsFaults all loadsObject fields = [] ↔
      fieldsFaults here loadsObject fields = [] ∧
        ∀ includePath ∈ fieldsIncludePaths fields, behind includePath = []
  | [] => by simp [fieldsFaults, fieldsIncludePaths]
  | (key, value) :: rest => by
    rw [fieldsFaults, fieldsFaults, fieldsIncludePaths]
    split
    · exact fieldsFaults_eq_nil hall rest
    · simp only [List.append_eq_nil_iff, List.forall_mem_append, faultsWith_eq_nil hall value,
        fieldsFaults_eq_nil hall rest]
      tauto
end

/-- Where a value has no faults, none of the files it names has. -/
theorem faults_of_includePaths (h : faultsWith here loadsObject value = [])
    (hpath : includePath ∈ includePaths value) : here includePath = [] :=
  ((faultsWith_eq_nil (fun _ => (and_self_iff).symm) value).mp h).2 includePath hpath

end

section
variable (paths : PathFunctions) (resolver : IncludeResolver)

/-- A directive leads from a file to another. -/
inductive Reaches : IncludeProcessor → ConfigValue → IncludeProcessor → ConfigValue → Prop
  | refl : Reaches processor value processor value
  | step : includePath ∈ includePaths value →
      openFile paths resolver processor includePath = .ok (nested, parsed) →
      Reaches nested parsed processor' value' → Reaches processor value processor' value'

/-- No directive of the file is at fault: each is well formed and names files that lie inside
the directory, do not lead back into the chain of the file, are not too deep and can be read;
and what it includes can be merged with the members beside it. -/
def Sound (processor : IncludeProcessor) (value : ConfigValue) : Prop :=
  faultsWith (loadFaults paths resolver (fun _ _ => []) processor)
    (loadsObject paths resolver
      (yieldsObjectAt paths resolver (MAX_INCLUDE_DEPTH - processor.depth - 1)) processor)
    value = []

variable {paths resolver}

theorem openFile_ok
    (h : openFile paths resolver processor includePath = .ok (nested, parsed)) :
    ∃ resolvedPath, processor.resolvePath paths includePath = .ok resolvedPath ∧
      resolvedPath ∉ processor.visited ∧ processor.depth < MAX_INCLUDE_DEPTH ∧
      nested = processor.nested paths resolvedPath := by
  unfold openFile at h
  cases hresolved : processor.resolvePath paths includePath with
  | error error => simp [hresolved] at h
  | ok resolvedPath =>
    simp only [hresolved] at h
    split at h
    · cases h
    · rename_i hvisited
      split at h
      · cases h
      · rename_i hdepth
        refine ⟨resolvedPath, rfl, hvisited, Nat.lt_of_not_le hdepth, ?_⟩
        repeat' split at h
        all_goals cases h
        rfl

variable (paths resolver) in
/-- The faults behind the opening of a file. -/
def behindFaults (behind : IncludeProcessor → ConfigValue → List Thrown)
    (processor : IncludeProcessor) (includePath : Text) : List Thrown :=
  match openFile paths resolver processor includePath with
  | .error _ => []
  | .ok (nested, parsed) => behind nested parsed

theorem loadFaults_eq_nil {behind : IncludeProcessor → ConfigValue → List Thrown}
    (processor : IncludeProcessor) (includePath : Text) :
    loadFaults paths resolver behind processor includePath = [] ↔
      loadFaults paths resolver (fun _ _ => []) processor includePath = [] ∧
        behindFaults paths resolver behind processor includePath = [] := by
  unfold loadFaults behindFaults
  cases openFile paths resolver processor includePath with
  | error error => simp
  | ok opened => simp

theorem behindFaults_eq_nil {behind : IncludeProcessor → ConfigValue → List Thrown}
    (processor : IncludeProcessor) (includePath : Text) :
    behindFaults paths resolver behind processor includePath = [] ↔
      ∀ nested parsed, openFile paths resolver processor includePath = .ok (nested, parsed) →
        behind nested parsed = [] := by
  unfold behindFaults
  cases openFile paths resolver processor includePath with
  | error error => simp
  | ok opened =>
    refine ⟨?_, fun h => h _ _ rfl⟩
    rintro h nested parsed hopened
    obtain rfl := Except.ok.inj hopened
    exact h

/-- No file is opened from one that is as deep as can be. -/
theorem loadsObject_of_deep {yields : IncludeProcessor → ConfigValue → Bool}
    (hdeep : MAX_INCLUDE_DEPTH ≤ processor.depth) :
    loadsObject paths resolver yields processor = fun _ => false := by
  funext includePath
  unfold loadsObject
  cases hopened : openFile paths resolver processor includePath with
  | error error => rfl
  | ok opened =>
    obtain ⟨-, -, -, hdepth, -⟩ := openFile_ok hopened
    exact absurd hdepth (Nat.not_lt_of_le hdeep)

theorem depth_nested (h : openFile paths resolver processor includePath = .ok (nested, parsed)) :
    processor.depth < MAX_INCLUDE_DEPTH ∧ nested.depth = processor.depth + 1 := by
  obtain ⟨resolvedPath, -, -, hdepth, rfl⟩ := openFile_ok h
  exact ⟨hdepth, rfl⟩

/-- There are no faults where no directive that is reached is at fault. -/
theorem faultsAt_eq_nil (left : Nat) (processor : IncludeProcessor) (value : ConfigValue)
    (hleft : processor.depth + left = MAX_INCLUDE_DEPTH) :
    faultsAt paths resolver left processor value = [] ↔
      ∀ processor' value', Reaches paths resolver processor value processor' value' →
        Sound paths resolver processor' value' := by
  induction left generalizing processor value with
  | zero =>
    have hdeep : MAX_INCLUDE_DEPTH ≤ processor.depth := hleft.ge
    rw [faultsAt, loadsObject_of_deep hdeep]
    have hsound : Sound paths resolver processor value ↔
        faultsWith (loadFaults paths resolver (fun _ _ => []) processor) (fun _ => false) value =
          [] := by
      rw [Sound, loadsObject_of_deep hdeep]
    rw [← hsound]
    refine ⟨?_, fun h => h _ _ .refl⟩
    rintro h processor' value' hreaches
    cases hreaches with
    | refl => exact h
    | step _ hopened _ => exact absurd (depth_nested hopened).1 (Nat.not_lt_of_le hdeep)
  | succ left ih =>
    have hrest : MAX_INCLUDE_DEPTH - processor.depth - 1 = left := by omega
    rw [faultsAt, faultsWith_eq_nil (loadFaults_eq_nil processor)]
    have hsound : Sound paths resolver processor value ↔
        faultsWith (loadFaults paths resolver (fun _ _ => []) processor)
          (loadsObject paths resolver (yieldsObjectAt paths resolver left) processor) value =
          [] := by
      rw [Sound, hrest]
    rw [← hsound]
    constructor
    · rintro ⟨hhere, hbehind⟩ processor' value' hreaches
      cases hreaches with
      | refl => exact hhere
      | step hpath hopened hlater =>
        have hnested := (behindFaults_eq_nil processor _).mp (hbehind _ hpath) _ _ hopened
        have hdepth := (depth_nested hopened).2
        exact (ih _ _ (by omega)).mp hnested _ _ hlater
    · intro h
      refine ⟨h _ _ .refl, fun includePath hpath => (behindFaults_eq_nil processor _).mpr ?_⟩
      rintro nested parsed hopened
      have hdepth := (depth_nested hopened).2
      refine (ih nested parsed (by omega)).mpr ?_
      exact fun processor' value' hlater => h _ _ (.step hpath hopened hlater)

/-- Where a file is sound, no directive leads back into its chain. -/
theorem Sound.not_circular (h : Sound paths resolver processor value)
    (hpath : includePath ∈ includePaths value)
    (hresolved : processor.resolvePath paths includePath = .ok resolvedPath) :
    resolvedPath ∉ processor.visited := by
  have hload := faults_of_includePaths h hpath
  unfold loadFaults at hload
  cases hopened : openFile paths resolver processor includePath with
  | error error => simp [hopened] at hload
  | ok opened =>
    obtain ⟨resolvedPath', hresolved', hvisited, -⟩ := openFile_ok hopened
    obtain rfl := Except.ok.inj (hresolved.symm.trans hresolved')
    exact hvisited

end

-- ---
-- What is read and what is left
-- ---

mutual
/-- There is no directive at any depth. -/
def NoDirective : ConfigValue → Prop
  | .arr items => ItemsNoDirective items
  | .obj fields => FieldsNoDirective fields
  | _ => True
def ItemsNoDirective : List ConfigValue → Prop
  | [] => True
  | item :: rest => NoDirective item ∧ ItemsNoDirective rest
def FieldsNoDirective : Fields → Prop
  | [] => True
  | (key, value) :: rest => key ≠ INCLUDE_KEY ∧ NoDirective value ∧ FieldsNoDirective rest
end

theorem itemsNoDirective_iff :
    ItemsNoDirective items ↔ ∀ item ∈ items, NoDirective item := by
  induction items with
  | nil => simp [ItemsNoDirective]
  | cons item rest ih => simp [ItemsNoDirective, ih]

theorem fieldsNoDirective_iff :
    FieldsNoDirective fields ↔ ∀ field ∈ fields, field.1 ≠ INCLUDE_KEY ∧ NoDirective field.2 := by
  induction fields with
  | nil => simp [FieldsNoDirective]
  | cons field rest ih =>
    obtain ⟨key, value⟩ := field
    simp [FieldsNoDirective, ih, and_assoc]

mutual
theorem deepMerge_noDirective :
    ∀ target source : ConfigValue, NoDirective target → NoDirective source →
      NoDirective (deepMerge target source)
  | target, .arr source, htarget, hsource => by
    cases target with
    | arr target =>
      rw [NoDirective, itemsNoDirective_iff] at htarget hsource
      rw [deepMerge, NoDirective, itemsNoDirective_iff]
      exact List.forall_mem_append.mpr ⟨htarget, hsource⟩
    | _ => simpa [deepMerge] using hsource
  | target, .obj source, htarget, hsource => by
    cases target with
    | obj target => exact mergeFields_noDirective target source htarget hsource
    | _ => simpa [deepMerge] using hsource
  | _, .undefined, _, _ | _, .null, _, _ | _, .bool _, _, _ | _, .num _, _, _
  | _, .str _, _, _ => by simp [deepMerge, NoDirective]
theorem mergeFields_noDirective :
    ∀ result source : Fields, FieldsNoDirective result → FieldsNoDirective source →
      FieldsNoDirective (mergeFields result source)
  | result, [], hresult, _ => by simpa [mergeFields] using hresult
  | result, (key, value) :: rest, hresult, ⟨hkey, hvalue, hrest⟩ => by
    rw [mergeFields]
    split
    · exact mergeFields_noDirective result rest hresult hrest
    · refine mergeFields_noDirective _ rest (fieldsNoDirective_iff.mpr ?_) hrest
      intro field hfield
      rcases mem_assign hfield with hold | rfl
      · exact fieldsNoDirective_iff.mp hresult field hold
      · refine ⟨hkey, ?_⟩
        dsimp only
        cases hlookup : result.lookup key with
        | none => exact hvalue
        | some target =>
          have htarget := fieldsNoDirective_iff.mp hresult _ (mem_of_lookup hlookup)
          exact deepMerge_noDirective target value htarget.2 hvalue
end

/-- What holds of each file that is read, and of the result. -/
structure Clean {α : Type} (R : FileRead → Prop) (P : α → Prop) (x : Processed α) : Prop where
  reads : ∀ read ∈ x.reads, R read
  result : ∀ a, x.result = .ok a → P a

namespace Clean

variable {α β : Type} {R : FileRead → Prop} {P : α → Prop} {Q : β → Prop}

theorem pure (h : P a) : Clean R P (.pure a) :=
  ⟨by simp [Processed.pure], fun _ hresult => Except.ok.inj hresult ▸ h⟩

theorem throw (error : Thrown) : Clean R P (.throw error) :=
  ⟨by simp [Processed.throw], fun _ hresult => by cases hresult⟩

theorem bind {x : Processed α} {f : α → Processed β} (hx : Clean R P x)
    (hf : ∀ a, P a → Clean R Q (f a)) : Clean R Q (x.bind f) := by
  unfold Processed.bind
  cases hresult : x.result with
  | error error => exact ⟨hx.reads, fun _ hresult => by cases hresult⟩
  | ok a =>
    have hnext := hf a (hx.result a hresult)
    exact ⟨List.forall_mem_append.mpr ⟨hx.reads, hnext.reads⟩, hnext.result⟩

theorem map {x : Processed α} {f : α → β} (hx : Clean R P x) (hf : ∀ a, P a → Q (f a)) :
    Clean R Q (x.map f) := hx.bind fun a ha => pure (hf a ha)

end Clean

section
variable {R : FileRead → Prop} {load : Text → Processed ConfigValue}

theorem foldl_mergeItem_clean (hload : ∀ includePath, Clean R NoDirective (load includePath))
    (items : List ConfigValue) {merged : Processed ConfigValue}
    (hmerged : Clean R NoDirective merged) :
    Clean R NoDirective (items.foldl (mergeItem load) merged) := by
  induction items generalizing merged with
  | nil => exact hmerged
  | cons item rest ih =>
    refine ih (hmerged.bind fun merged hclean => ?_)
    cases item with
    | str includePath =>
      exact (hload includePath).map fun loaded hloaded => deepMerge_noDirective _ _ hclean hloaded
    | _ => exact .throw _

theorem resolveInclude_clean (hload : ∀ includePath, Clean R NoDirective (load includePath))
    (value : ConfigValue) : Clean R NoDirective (resolveInclude load value) := by
  cases value with
  | str includePath => exact hload includePath
  | arr items =>
    refine foldl_mergeItem_clean hload items (.pure ?_)
    simp [NoDirective, FieldsNoDirective]
  | _ => exact .throw _

mutual
theorem processWith_clean (hload : ∀ includePath, Clean R NoDirective (load includePath)) :
    ∀ value : ConfigValue, Clean R NoDirective (processWith load value)
  | .arr items => (processItems_clean hload items).map fun _ hitems => hitems
  | .obj fields => by
    have hfields := processFields_clean hload fields
    rw [processWith]
    cases fields.lookup INCLUDE_KEY with
    | none => exact hfields.map fun _ hrest => hrest
    | some includeValue =>
      refine (resolveInclude_clean hload includeValue).bind fun included hincluded => ?_
      split
      · exact .pure hincluded
      · split
        · exact .throw _
        · exact hfields.map fun rest hrest => deepMerge_noDirective _ (.obj rest) hincluded hrest
  | .undefined | .null | .bool _ | .num _ | .str _ => .pure (by simp [NoDirective])
theorem processItems_clean (hload : ∀ includePath, Clean R NoDirective (load includePath)) :
    ∀ items : List ConfigValue, Clean R ItemsNoDirective (processItems load items)
  | [] => .pure trivial
  | item :: rest => (processWith_clean hload item).bind fun _ hitem =>
      (processItems_clean hload rest).map fun _ hrest => ⟨hitem, hrest⟩
theorem processFields_clean (hload : ∀ includePath, Clean R NoDirective (load includePath)) :
    ∀ fields : Fields, Clean R FieldsNoDirective (processFields load fields)
  | [] => .pure trivial
  | (key, value) :: rest => by
    rw [processFields]
    split
    · exact processFields_clean hload rest
    · rename_i hkey
      refine (processWith_clean hload value).bind fun value hvalue => ?_
      refine (processFields_clean hload rest).map fun rest hrest => ?_
      unfold addField
      split
      · exact hrest
      · exact ⟨hkey, hvalue, hrest⟩
end

end

section
variable (paths : PathFunctions) (resolver : IncludeResolver)

/-- A file inside the directory of the config, not too deep. -/
def ReadInside (configPath : Text) (read : FileRead) : Prop :=
  paths.isPathInside (paths.normalize (paths.dirname configPath)) read.path = true ∧
    read.depth ≤ MAX_INCLUDE_DEPTH

variable {paths resolver}

theorem resolvePath_inside {processor : IncludeProcessor}
    (h : processor.resolvePath paths includePath = .ok resolvedPath) :
    paths.isPathInside processor.rootDir resolvedPath = true := by
  unfold IncludeProcessor.resolvePath at h
  dsimp only at h
  generalize paths.normalize (if paths.isAbsolute includePath = true then includePath
    else paths.resolve (paths.dirname processor.basePath) includePath) = normalized at h
  split at h
  · cases h
  · rename_i hinside
    split at h
    · cases h
    · obtain rfl := Except.ok.inj h
      simpa using hinside

theorem loadFile_clean {process : IncludeProcessor → ConfigValue → Processed ConfigValue}
    {processor : IncludeProcessor}
    (hroot : processor.rootDir = paths.normalize (paths.dirname configPath))
    (hprocess : processor.depth < MAX_INCLUDE_DEPTH → ∀ resolvedPath parsed,
      Clean (ReadInside paths configPath) NoDirective
        (process (processor.nested paths resolvedPath) parsed))
    (includePath : Text) :
    Clean (ReadInside paths configPath) NoDirective
      (loadFile paths resolver process processor includePath) := by
  unfold loadFile
  cases hresolved : processor.resolvePath paths includePath with
  | error error => exact .throw _
  | ok resolvedPath =>
    dsimp only
    split
    · exact .throw _
    · split
      · exact .throw _
      · rename_i hdepth
        have hdepth := Nat.lt_of_not_le hdepth
        have hopened : ReadInside paths configPath ⟨resolvedPath, processor.depth + 1⟩ :=
          ⟨hroot ▸ resolvePath_inside hresolved, hdepth⟩
        have hfailed (error : IncludeError) : Clean (ReadInside paths configPath) NoDirective
            ⟨[⟨resolvedPath, processor.depth + 1⟩], .error (.includeError error)⟩ :=
          ⟨by simpa using hopened, fun _ hresult => by cases hresult⟩
        split
        · exact hfailed _
        · split
          · exact hfailed _
          · rename_i parsed _
            have hnested := hprocess hdepth resolvedPath parsed
            exact ⟨List.forall_mem_cons.mpr ⟨hopened, hnested.reads⟩, hnested.result⟩

theorem processAt_clean
    (hnormalize : ∀ path, paths.normalize (paths.normalize path) = paths.normalize path)
    (left : Nat) (processor : IncludeProcessor) (value : ConfigValue)
    (hroot : processor.rootDir = paths.normalize (paths.dirname configPath))
    (hleft : processor.depth + left = MAX_INCLUDE_DEPTH) :
    Clean (ReadInside paths configPath) NoDirective
      (processAt paths resolver left processor value) := by
  induction left generalizing processor value with
  | zero =>
    refine processWith_clean (loadFile_clean hroot fun hdepth => ?_) value
    exact absurd hleft (Nat.ne_of_lt hdepth)
  | succ left ih =>
    refine processWith_clean (loadFile_clean hroot fun _ resolvedPath parsed => ?_) value
    refine ih _ parsed ?_ ?_
    · rw [IncludeProcessor.nested, hroot, hnormalize]
    · simp only [IncludeProcessor.nested]
      omega

-- ---
-- Configs
-- ---

variable (paths resolver)

/-- What resolving the includes of a config is to come to. -/
structure Resolves (config : ConfigValue) (configPath : Text) : Prop where
  ends : ∀ error, (resolveConfigIncludes paths resolver config configPath).result = .error error →
    ∃ includeError, error = .includeError includeError
  reads : ∀ read ∈ (resolveConfigIncludes paths resolver config configPath).reads,
    ReadInside paths configPath read
  /-- A cycle that is reached is an error. -/
  acyclic : ∀ result,
    (resolveConfigIncludes paths resolver config configPath).result = .ok result →
    ∀ processor value, Reaches paths resolver (.ofConfig paths configPath) config processor value →
      ∀ includePath ∈ includePaths value, ∀ resolvedPath,
        processor.resolvePath paths includePath = .ok resolvedPath →
          resolvedPath ∉ processor.visited
  /-- Each directive counts on its own chain only, so that diamonds are accepted. -/
  accepts : (∃ result,
      (resolveConfigIncludes paths resolver config configPath).result = .ok result) ↔
    ∀ processor value, Reaches paths resolver (.ofConfig paths configPath) config processor value →
      Sound paths resolver processor value
  noDirective : ∀ result,
    (resolveConfigIncludes paths resolver config configPath).result = .ok result →
      NoDirective result

/-- The first fault that is met in a config. -/
def firstFault (config : ConfigValue) (configPath : Text) : Option Thrown :=
  (faultsAt paths resolver MAX_INCLUDE_DEPTH (.ofConfig paths configPath) config).head?

theorem resolveConfigIncludes_resolves_iff
    (hnormalize : ∀ path, paths.normalize (paths.normalize path) = paths.normalize path)
    (config : ConfigValue) (configPath : Text) :
    Resolves paths resolver config configPath ↔
      firstFault paths resolver config configPath ≠ some .typeError := by
  have hclean : Clean (ReadInside paths configPath) NoDirective
      (resolveConfigIncludes paths resolver config configPath) :=
    processAt_clean hnormalize MAX_INCLUDE_DEPTH (.ofConfig paths configPath) config rfl rfl
  have hfaults : faultsAt paths resolver MAX_INCLUDE_DEPTH (.ofConfig paths configPath) config =
      [] ↔ ∀ processor value,
        Reaches paths resolver (.ofConfig paths configPath) config processor value →
          Sound paths resolver processor value :=
    faultsAt_eq_nil MAX_INCLUDE_DEPTH (.ofConfig paths configPath) config rfl
  have hsound (result : ConfigValue)
      (hresult : (resolveConfigIncludes paths resolver config configPath).result = .ok result) :
      faultsAt paths resolver MAX_INCLUDE_DEPTH (.ofConfig paths configPath) config = [] := by
    cases processAt_meets MAX_INCLUDE_DEPTH (.ofConfig paths configPath) config with
    | value _ _ hnone _ => exact hnone
    | fault error herror _ => cases hresult.symm.trans herror
  constructor
  · rintro hresolves hfirst
    cases processAt_meets MAX_INCLUDE_DEPTH (.ofConfig paths configPath) config with
    | value _ _ hnone _ =>
      rw [firstFault, hnone] at hfirst
      cases hfirst
    | fault error herror hhead =>
      obtain ⟨includeError, rfl⟩ := hresolves.ends error herror
      cases hhead.symm.trans hfirst
  · intro hfirst
    refine ⟨?_, hclean.reads, ?_, ⟨?_, ?_⟩, hclean.result⟩
    · rintro error herror
      cases processAt_meets MAX_INCLUDE_DEPTH (.ofConfig paths configPath) config with
      | value _ hresult _ _ => cases hresult.symm.trans herror
      | fault error' herror' hhead =>
        obtain rfl := Except.error.inj (herror'.symm.trans herror)
        cases error' with
        | includeError includeError => exact ⟨includeError, rfl⟩
        | typeError => exact absurd hhead hfirst
    · rintro result hresult processor value hreaches includePath hpath resolvedPath hresolved
      exact (hfaults.mp (hsound result hresult) _ _ hreaches).not_circular hpath hresolved
    · rintro ⟨result, hresult⟩
      exact hfaults.mp (hsound result hresult)
    · intro hall
      cases processAt_meets MAX_INCLUDE_DEPTH (.ofConfig paths configPath) config with
      | value result hresult _ _ => exact ⟨result, hresult⟩
      | fault error _ hhead => simp [hfaults.mpr hall] at hhead

end

-- ---
-- Two configs
-- ---

def samplePaths : PathFunctions where
  normalize path := path
  dirname path := (path.reverse.dropWhile (· ≠ '/')).tail.reverse
  isAbsolute path := path.head? = some '/'
  resolve base path := base ++ '/' :: path
  isPathInside base path := (base ++ ['/']).isPrefixOf path
  realpath _ := none

/-- Two files that both include a third. -/
def sampleResolver : IncludeResolver where
  readFile params := .ok params.includePath
  parseJson raw :=
    if raw = "base.json".toList then some (.obj [("port".toList, .null)])
    else some (.obj [(INCLUDE_KEY, .str "base.json".toList)])

def diamondConfig : ConfigValue :=
  .obj [(INCLUDE_KEY, .arr [.str "left.json".toList, .str "right.json".toList])]

theorem resolveConfigIncludes_resolves_diamond :
    Resolves samplePaths sampleResolver diamondConfig "/etc/openclaw.json".toList := by
  refine (resolveConfigIncludes_resolves_iff samplePaths sampleResolver (fun _ => rfl)
    diamondConfig "/etc/openclaw.json".toList).mpr ?_
  have hnone : (firstFault samplePaths sampleResolver diamondConfig
      "/etc/openclaw.json".toList).isNone = true := by decide
  rw [Option.isNone_iff_eq_none.mp hnone]
  intro hsome
  cases hsome

/-- The error for an object that has a `toString` is no include error. -/
theorem not_resolveConfigIncludes_resolves :
    ¬Resolves samplePaths sampleResolver
      (.obj [(INCLUDE_KEY, .obj [("toString".toList, .null)])]) "/etc/openclaw.json".toList := by
  intro hresolves
  obtain ⟨includeError, herror⟩ := hresolves.ends .typeError (by rfl)
  cases herror

end OpenClaw.Config.Includes
