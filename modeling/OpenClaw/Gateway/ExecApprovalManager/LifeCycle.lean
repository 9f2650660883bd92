import OpenClaw.Gateway.ExecApprovalManager

/-!
# The life of a registration

A registration waits until the first call or timeout that decides it, and is done from then on:
its promise has the decision, and an allow-once decision can be consumed once.
-/

namespace OpenClaw.ExecApproval.ExecApprovalManager

open Js (Text trimChars)

variable {P : Type} {s s' : ExecApprovalManager P} {op : Op P} {event : Option Event}
  {record : ExecApprovalRecord P} {d : Option ExecApprovalDecision} {key : Text}
  {r n : Nat} {resolved spendable : Bool} {id : Text} {ops : List (Op P)} {events : List Event}

-- ---
-- Entries as they are seen
-- ---

/-- The registration, whether it is resolved, and whether its decision can be consumed. -/
def seen (entry : PendingEntry P) : Nat × Bool × Bool :=
  (entry.registration, entry.record.resolvedAtMs.isSome,
    decide (entry.record.decision = some .allowOnce))

def view (s : ExecApprovalManager P) (id : Text) : Option (Nat × Bool × Bool) := (s.get id).map seen

theorem view_add (hnone : s.view record.id = none) (id : Text) :
    (s.add record).view id =
      if id = record.id then some (seen ⟨record, s.nextRegistration⟩) else s.view id := by
  unfold view get at *
  unfold add
  rw [List.lookup_append, Members.lookup_cons]
  split
  · rename_i hid
    rw [hid, Option.map_eq_none_iff.mp hnone]
    rfl
  · rw [List.lookup_nil, Option.or_none]

theorem get_modify (s : ExecApprovalManager P) (key : Text)
    (f : ExecApprovalRecord P → ExecApprovalRecord P) (id : Text) :
    (s.modify key f).get id = (s.get id).map fun entry =>
      if id = key then { entry with record := f entry.record } else entry := by
  unfold modify get
  dsimp only
  induction s.pending with
  | nil => rfl
  | cons member members ih =>
    rw [List.map_cons, Members.lookup_cons, Members.lookup_cons, ih]
    dsimp only
    split
    · rename_i hkey
      rw [hkey]
      rfl
    · rfl

theorem view_modify (s : ExecApprovalManager P) (key : Text)
    (f : ExecApprovalRecord P → ExecApprovalRecord P) (id : Text) :
    (s.modify key f).view id =
      if id = key then (s.get key).map fun entry => seen { entry with record := f entry.record }
      else s.view id := by
  unfold view
  rw [get_modify, Option.map_map]
  split
  · rename_i hid
    subst hid
    simp [Function.comp_def]
  · rename_i hid
    simp [Function.comp_def, hid]

theorem view_settleEntry (h : s.view key = some (r, resolved, spendable)) (id : Text) :
    (s.settleEntry key r d resolvedBy now).view id =
      if id = key then some (r, true, decide (d = some .allowOnce)) else s.view id := by
  obtain ⟨entry, hentry, hseen⟩ := Option.map_eq_some_iff.mp h
  change (s.modify key fun record =>
    { record with resolvedAtMs := some now, decision := d, resolvedBy }).view id = _
  rw [view_modify, hentry, ← (Prod.mk.inj hseen).1]
  rfl

theorem view_consumed (h : s.view key = some (r, resolved, spendable)) (id : Text) :
    (s.modify key fun record => { record with decision := none }).view id =
      if id = key then some (r, resolved, false) else s.view id := by
  obtain ⟨entry, hentry, hseen⟩ := Option.map_eq_some_iff.mp h
  obtain ⟨hr, hresolved⟩ := Prod.mk.inj hseen
  rw [view_modify, hentry, ← hr, ← (Prod.mk.inj hresolved).1]
  rfl

theorem view_endGrace (h : s.view key = some (r, resolved, spendable)) (id : Text) :
    (s.endGrace r key).view id = if id = key then none else s.view id := by
  obtain ⟨entry, hentry, hseen⟩ := Option.map_eq_some_iff.mp h
  have hfound : (s.get key).map (·.registration) = some r := by
    rw [hentry, ← (Prod.mk.inj hseen).1]
    rfl
  unfold endGrace view get at *
  dsimp only at *
  rw [if_pos hfound, Members.remove, Members.lookup_filter s.pending (fun id => decide (id ≠ key))]
  by_cases hid : id = key
  · simp [hid]
  · simp [hid]

-- ---
-- Steps
-- ---

structure Sound (s : ExecApprovalManager P) : Prop where
  nodup : (s.pending.map Prod.fst).Nodup
  fresh : ∀ id r resolved spendable,
    s.view id = some (r, resolved, spendable) → r < s.nextRegistration
  distinct : ∀ id key r seen seen',
    s.view id = some (r, seen) → s.view key = some (r, seen') → id = key
  unspendable : ∀ id r spendable, s.view id = some (r, false, spendable) → spendable = false
  timeouts : ∀ r id, (r, id) ∈ s.timeouts → s.view id = some (r, false, false)
  graces : ∀ r id, (r, id) ∈ s.graces → ∃ spendable, s.view id = some (r, true, spendable)

/-- What the event settles the registration's promise with. -/
def settles (r : Nat) : Event → Option (Option ExecApprovalDecision)
  | .settled registration d => if registration = r then some d else none
  | _ => none

def settlements (r : Nat) (events : List Event) : List (Option ExecApprovalDecision) :=
  events.filterMap (settles r)

def consumptions (r : Nat) (events : List Event) : Nat := events.count (.consumed r)

/-- What the call or timer decides of a registration that waits under the id. -/
def Op.decision? (r : Nat) (id : Text) : Op P → Option (Option ExecApprovalDecision)
  | .resolve recordId decision _ _ => if recordId = id then some (some decision) else none
  | .expire recordId _ _ => if recordId = id then some none else none
  | .timeoutFires registration _ => if registration = r then some none else none
  | _ => none

def Waiting (s : ExecApprovalManager P) (r : Nat) (id : Text) : Prop :=
  s.view id = some (r, false, false)

/-- What the operation decides of the registrations that wait. -/
def Decides (s : ExecApprovalManager P) (op : Op P)
    (outcome : Nat → Option (Option ExecApprovalDecision)) : Prop :=
  ∀ r id, Waiting s r id → op.decision? r id = outcome r

inductive Change (s : ExecApprovalManager P) (op : Op P) :
    Option Event → ExecApprovalManager P → Prop
  | same : Decides s op (fun _ => none) → Change s op none s
  | registered (record : ExecApprovalRecord P) : Decides s op (fun _ => none) →
      s.view record.id = none →
      seen ⟨record, s.nextRegistration⟩ = (s.nextRegistration, false, false) →
      Change s op (some (.registered s.nextRegistration record.id)) (s.add record)
  | settled {r : Nat} (key : Text) (d : Option ExecApprovalDecision) (resolvedBy : Option Text)
      (now : Int) : Decides s op (fun r' => if r = r' then some d else none) →
      s.view key = some (r, false, false) →
      Change s op (some (.settled r d)) (s.settleEntry key r d resolvedBy now)
  | consumed {r : Nat} (key : Text) : Decides s op (fun _ => none) →
      s.view key = some (r, true, true) →
      Change s op (some (.consumed r)) (s.modify key fun record => { record with decision := none })
  | ended {r : Nat} {spendable : Bool} (key : Text) : op = .graceEnds r →
      s.view key = some (r, true, spendable) → Change s op none (s.endGrace r key)

theorem nodup_modify (h : (s.pending.map Prod.fst).Nodup) (key : Text)
    (f : ExecApprovalRecord P → ExecApprovalRecord P) :
    ((s.modify key f).pending.map Prod.fst).Nodup := by
  unfold modify
  dsimp only
  rw [List.map_map]
  exact h

/-- What is seen after a step that touches one entry only, and does not make it wait. -/
theorem Sound.touched (h : Sound s) {touched : Option (Nat × Bool × Bool)}
    (hkey : s.view key = some (r, resolved, spendable))
    (hview : ∀ id, s'.view id = if id = key then touched else s.view id)
    (htouched : ∀ after ∈ touched, after.1 = r ∧ after.2.1 = true)
    (hnext : s'.nextRegistration = s.nextRegistration)
    (hnodup : (s'.pending.map Prod.fst).Nodup)
    (htimeouts : ∀ r' id, (r', id) ∈ s'.timeouts → (r', id) ∈ s.timeouts ∧ id ≠ key)
    (hgraces : ∀ r' id, (r', id) ∈ s'.graces →
      (r', id) ∈ s.graces ∧ id ≠ key ∨
        id = key ∧ ∃ spendable, touched = some (r', true, spendable)) :
    Sound s' := by
  have hkeep {id : Text} (hne : id ≠ key) : s'.view id = s.view id := by rw [hview, if_neg hne]
  have hold {id : Text} {r' : Nat} {after : Bool × Bool} (hid : s'.view id = some (r', after)) :
      ∃ before, s.view id = some (r', before) ∧ (after.1 = true ∨ after = before) := by
    rw [hview] at hid
    split at hid
    · rename_i heq
      obtain ⟨rfl, htrue⟩ := htouched _ hid
      exact ⟨_, heq ▸ hkey, .inl htrue⟩
    · exact ⟨after, hid, .inr rfl⟩
  refine ⟨hnodup, fun id r resolved spendable hid => ?_, fun id key r _ _ hid hkey => ?_,
    fun id r spendable hid => ?_, fun r id hid => ?_, fun r id hid => ?_⟩
  · obtain ⟨before, hid, -⟩ := hold hid
    exact hnext ▸ h.fresh id r _ _ hid
  · obtain ⟨before, hid, -⟩ := hold hid
    obtain ⟨before', hkey, -⟩ := hold hkey
    exact h.distinct id key r _ _ hid hkey
  · obtain ⟨before, hid, htrue | rfl⟩ := hold hid
    · cases htrue
    · exact h.unspendable id r spendable hid
  · obtain ⟨hid, hne⟩ := htimeouts r id hid
    rw [hkeep hne]
    exact h.timeouts r id hid
  · rcases hgraces r id hid with ⟨hid, hne⟩ | ⟨rfl, spendable, rfl⟩
    · rw [hkeep hne]
      exact h.graces r id hid
    · exact ⟨spendable, by rw [hview, if_pos rfl]⟩

theorem Sound.add (h : Sound s) (hnone : s.view record.id = none)
    (hseen : seen ⟨record, s.nextRegistration⟩ = (s.nextRegistration, false, false)) :
    Sound (s.add record) := by
  have hview := view_add hnone
  rw [hseen] at hview
  have hkeep {id : Text} {seen} (hid : s.view id = some seen) :
      (s.add record).view id = some seen := by
    rw [hview, if_neg, hid]
    rintro rfl
    rw [hnone] at hid
    cases hid
  have hold {id : Text} {r seen} (hid : (s.add record).view id = some (r, seen)) :
      id = record.id ∧ r = s.nextRegistration ∧ seen = (false, false) ∨
        s.view id = some (r, seen) := by
    rw [hview] at hid
    split at hid
    · rename_i heq
      cases hid
      exact .inl ⟨heq, rfl, rfl⟩
    · exact .inr hid
  refine ⟨?_, fun id r resolved spendable hid => ?_, fun id key r seen seen' hid hkey => ?_,
    fun id r spendable hid => ?_, fun r id hid => ?_, fun r id hid => ?_⟩
  · have hkey : record.id ∉ s.pending.map Prod.fst :=
      Members.lookup_eq_none.mp (Option.map_eq_none_iff.mp hnone)
    unfold ExecApprovalManager.add
    rw [List.map_append]
    exact List.Nodup.append h.nodup (List.nodup_singleton _)
      (List.disjoint_singleton.mpr hkey)
  · rcases hold hid with ⟨-, rfl, -⟩ | hid
    · exact Nat.lt_succ_self _
    · exact (h.fresh id r resolved spendable hid).trans (Nat.lt_succ_self _)
  · rcases hold hid with ⟨rfl, rfl, -⟩ | hid <;> rcases hold hkey with ⟨rfl, hr, -⟩ | hkey
    · rfl
    · exact absurd (h.fresh _ _ _ _ hkey) (lt_irrefl _)
    · exact absurd (h.fresh _ _ _ _ (hr ▸ hid)) (lt_irrefl _)
    · exact h.distinct id key r seen seen' hid hkey
  · rcases hold hid with ⟨-, -, hseen⟩ | hid
    · exact (Prod.mk.inj hseen).2
    · exact h.unspendable id r spendable hid
  · rcases List.mem_append.mp hid with hid | hid
    · exact hkeep (h.timeouts r id hid)
    · cases List.mem_singleton.mp hid
      rw [hview, if_pos rfl]
  · obtain ⟨spendable, hid⟩ := h.graces r id hid
    exact ⟨spendable, hkeep hid⟩

/-- A timer that is set for the entry's id is the entry's own. -/
theorem Sound.timeout_eq (h : Sound s) (hkey : s.view key = some (r, resolved, spendable))
    (hmem : (r', key) ∈ s.timeouts) : r' = r ∧ resolved = false := by
  have hview := h.timeouts r' key hmem
  rw [hkey] at hview
  cases hview
  exact ⟨rfl, rfl⟩

theorem Sound.grace_eq (h : Sound s) (hkey : s.view key = some (r, resolved, spendable))
    (hmem : (r', key) ∈ s.graces) : r' = r ∧ resolved = true := by
  obtain ⟨_, hview⟩ := h.graces r' key hmem
  rw [hkey] at hview
  cases hview
  exact ⟨rfl, rfl⟩

theorem Sound.change (h : Sound s) (hchange : Change s op event s') : Sound s' := by
  cases hchange with
  | same => exact h
  | registered record _ hnone hseen => exact h.add hnone hseen
  | @settled r key d resolvedBy now _ hkey =>
    refine h.touched hkey (view_settleEntry hkey) (by rintro _ ⟨⟩; exact ⟨rfl, rfl⟩) rfl
      (nodup_modify h.nodup key fun record =>
        { record with resolvedAtMs := some now, decision := d, resolvedBy })
      (fun r' id hafter => ?_) fun r' id hafter => ?_
    · obtain ⟨hid, hne⟩ := List.mem_filter.mp hafter
      refine ⟨hid, ?_⟩
      rintro rfl
      exact of_decide_eq_true hne (h.timeout_eq hkey hid).1
    · rcases List.mem_append.mp hafter with hid | hid
      · refine .inl ⟨hid, ?_⟩
        rintro rfl
        cases (h.grace_eq hkey hid).2
      · cases List.mem_singleton.mp hid
        exact .inr ⟨rfl, _, rfl⟩
  | @consumed r key _ hkey =>
    refine h.touched hkey (view_consumed hkey) (by rintro _ ⟨⟩; exact ⟨rfl, rfl⟩) rfl
      (nodup_modify h.nodup _ _) (fun r' id hid => ⟨hid, ?_⟩) fun r' id hid => ?_
    · rintro rfl
      cases (h.timeout_eq hkey hid).2
    · by_cases heq : id = key
      · subst heq
        obtain ⟨rfl, -⟩ := h.grace_eq hkey hid
        exact .inr ⟨rfl, _, rfl⟩
      · exact .inl ⟨hid, heq⟩
  | @ended r spendable key _ hkey =>
    refine h.touched hkey (view_endGrace hkey) (by rintro _ ⟨⟩) rfl ?_
      (fun r' id hid => ⟨hid, ?_⟩) fun r' id hafter => .inl ?_
    · unfold endGrace
      dsimp only
      split
      · exact h.nodup.sublist (List.filter_sublist.map _)
      · exact h.nodup
    · rintro rfl
      cases (h.timeout_eq hkey hid).2
    · obtain ⟨hid, hne⟩ := List.mem_filter.mp hafter
      refine ⟨hid, ?_⟩
      rintro rfl
      exact of_decide_eq_true hne (h.grace_eq hkey hid).1

theorem Sound.empty : Sound (empty : ExecApprovalManager P) := by
  refine ⟨List.nodup_nil, ?_, ?_, ?_, ?_, ?_⟩ <;> intros <;> contradiction

-- ---
-- What each call does
-- ---

theorem Sound.view_unresolved (hs : Sound s) {entry : PendingEntry P}
    (hget : s.get key = some entry) (hnew : entry.record.resolvedAtMs = none) :
    s.view key = some (entry.registration, false, false) := by
  have hview : s.view key =
      some (entry.registration, false, decide (entry.record.decision = some .allowOnce)) := by
    rw [view, hget, Option.map_some, seen, hnew]
    rfl
  rw [hview, hs.unspendable key _ _ hview]

theorem Sound.key_eq_iff (hs : Sound s) {rest : Bool × Bool} (hkey : s.view key = some (r', rest))
    (hw : Waiting s r id) : key = id ↔ r' = r := by
  constructor
  · rintro rfl
    rw [hw] at hkey
    exact (Prod.mk.inj (Option.some.inj hkey)).1.symm
  · rintro rfl
    exact hs.distinct _ _ _ _ _ hkey hw

theorem settle_change (hs : Sound s) (h : s.settle key d resolvedBy now = (s', event))
    (hop : ∀ r id, Waiting s r id → op.decision? r id = if key = id then some d else none) :
    Change s op event s' := by
  unfold settle at h
  cases hget : s.get key with
  | none =>
    rw [hget] at h
    cases h
    refine .same fun r id hw => (hop r id hw).trans (if_neg ?_)
    rintro rfl
    rw [Waiting, view, hget] at hw
    cases hw
  | some entry =>
    rw [hget] at h
    dsimp only at h
    split at h
    · rename_i hnew
      cases h
      have hview := hs.view_unresolved hget hnew
      exact .settled key d resolvedBy now (fun r id hw =>
        (hop r id hw).trans (if_congr (hs.key_eq_iff hview hw) rfl rfl)) hview
    · rename_i hresolved
      cases h
      refine .same fun r id hw => (hop r id hw).trans (if_neg ?_)
      rintro rfl
      obtain ⟨other, hother, hseen⟩ := Option.map_eq_some_iff.mp hw
      rw [hget] at hother
      cases hother
      exact hresolved (by simpa using (Prod.mk.inj (Prod.mk.inj hseen).2).1)

/-- A timeout that fires is that of its own entry, and clears nothing else. -/
theorem expire_timeout (hs : Sound s) (hmem : (r, key) ∈ s.timeouts) (now : Int) :
    ({ s with timeouts := s.timeouts.filter (·.1 ≠ r) }.expire key none now) =
      s.expire key none now := by
  have hview := hs.timeouts r key hmem
  obtain ⟨entry, hget, hseen⟩ := Option.map_eq_some_iff.mp hview
  have hr : entry.registration = r := (Prod.mk.inj hseen).1
  have hnew : entry.record.resolvedAtMs = none := by
    simpa using (Prod.mk.inj (Prod.mk.inj hseen).2).1
  have hget' : { s with timeouts := s.timeouts.filter (·.1 ≠ r) }.get key = some entry := hget
  unfold expire settle
  rw [hget, hget']
  dsimp only
  rw [if_pos hnew, if_pos hnew, hr]
  unfold settleEntry modify
  simp only [List.filter_filter, Bool.and_self]

theorem step_change (hs : Sound s) (hstep : s.step op = some (s', event)) :
    Change s op event s' := by
  cases op with
  | register request timeoutMs id randomUUID now =>
    simp only [step, register] at hstep
    cases hget : s.get (create request timeoutMs id randomUUID now).id with
    | none =>
      rw [hget] at hstep
      simp only [if_true, Option.some.injEq, Prod.mk.injEq] at hstep
      obtain ⟨rfl, rfl⟩ := hstep
      exact .registered _ (fun _ _ _ => rfl) (by rw [view, hget]; rfl) rfl
    | some existing =>
      rw [hget] at hstep
      dsimp only at hstep
      have hfresh : existing.registration ≠ s.nextRegistration :=
        (hs.fresh _ existing.registration _ _ (by rw [view, hget]; rfl)).ne
      by_cases hnew : existing.record.resolvedAtMs = none
      · rw [if_pos hnew] at hstep
        dsimp only at hstep
        rw [if_neg hfresh] at hstep
        cases hstep
        exact .same fun _ _ _ => rfl
      · rw [if_neg hnew] at hstep
        cases hstep
        exact .same fun _ _ _ => rfl
  | resolve recordId decision resolvedBy now =>
    exact settle_change hs (Option.some.inj hstep) fun _ _ _ => rfl
  | expire recordId resolvedBy now =>
    exact settle_change hs (Option.some.inj hstep) fun _ _ _ => rfl
  | timeoutFires registration now =>
    obtain ⟨recordId, hmem, hstep⟩ := Option.map_eq_some_iff.mp hstep
    have hview := hs.timeouts _ _ (Members.mem_of_lookup hmem)
    rw [expire_timeout hs (Members.mem_of_lookup hmem)] at hstep
    exact settle_change hs hstep fun r id hw =>
      (if_congr (hs.key_eq_iff hview hw) rfl rfl).symm
  | graceEnds registration =>
    obtain ⟨recordId, hmem, hstep⟩ := Option.map_eq_some_iff.mp hstep
    obtain ⟨spendable, hview⟩ := hs.graces _ _ (Members.mem_of_lookup hmem)
    cases hstep
    exact .ended recordId rfl hview
  | consumeAllowOnce recordId =>
    simp only [step, consumeAllowOnce] at hstep
    cases hget : s.get recordId with
    | none =>
      rw [hget] at hstep
      cases hstep
      exact .same fun _ _ _ => rfl
    | some entry =>
      rw [hget] at hstep
      dsimp only at hstep
      split at hstep
      · rename_i hallow
        cases hstep
        refine .consumed recordId (fun _ _ _ => rfl) ?_
        have hview : s.view recordId =
            some (entry.registration, entry.record.resolvedAtMs.isSome, true) := by
          rw [view, hget, Option.map_some, seen, decide_eq_true hallow]
        cases hresolved : entry.record.resolvedAtMs.isSome with
        | true => rw [hview, hresolved]
        | false => cases hs.unspendable _ _ _ (hresolved ▸ hview)
      · cases hstep
        exact .same fun _ _ _ => rfl
  | getSnapshot => cases hstep; exact .same fun _ _ _ => rfl
  | awaitDecision => cases hstep; exact .same fun _ _ _ => rfl
  | lookupPendingId => cases hstep; exact .same fun _ _ _ => rfl

theorem sound_of_reachable (h : (system (P := P)).Reachable s) : Sound s := by
  refine h.invariant (fun s hinit => ?_) fun s op s' hs hstep => ?_
  · cases hinit
    exact .empty
  · obtain ⟨⟨s₁, event⟩, hcall, rfl⟩ := Option.map_eq_some_iff.mp hstep
    exact hs.change (step_change hs hcall)

-- ---
-- One registration
-- ---

/-- The registration's promise has `d`, and its decision was consumed `n` times. -/
structure Done (s : ExecApprovalManager P) (r : Nat) (d : Option ExecApprovalDecision) (n : Nat) :
    Prop where
  known : r < s.nextRegistration
  once : n = 0 ∨ n = 1 ∧ d = some .allowOnce
  decided : ∀ id resolved spendable, s.view id = some (r, resolved, spendable) →
    resolved = true ∧ (spendable = true → n = 0 ∧ d = some .allowOnce)

/-- A waiting registration is settled by just the calls and timers that decide it. -/
theorem Change.decides (hchange : Change s op event s') (hw : Waiting s r id) :
    settlements r event.toList = (op.decision? r id).toList := by
  cases hchange with
  | same hop => rw [hop r id hw]; rfl
  | registered record hop => rw [hop r id hw]; rfl
  | @settled r' key d resolvedBy now hop hkey =>
    rw [hop r id hw]
    by_cases hr : r' = r <;> simp [settlements, settles, hr]
  | consumed key hop => rw [hop r id hw]; rfl
  | ended key hop => rw [hop]; rfl

/-- The grace timer of an entry stays set until it fires. -/
theorem Change.grace (hchange : Change s op event s') (hmem : (r, id) ∈ s.graces)
    (hne : op ≠ .graceEnds r) : (r, id) ∈ s'.graces := by
  cases hchange with
  | settled => exact List.mem_append_left _ hmem
  | ended key hop =>
    refine List.mem_filter.mpr ⟨hmem, decide_eq_true ?_⟩
    rintro rfl
    exact hne hop
  | _ => exact hmem

/-- A step leaves a registration waiting, or it settles it and its grace period begins. -/
theorem Waiting.change (hs : Sound s) (hw : Waiting s r id) (hchange : Change s op event s') :
    (settlements r event.toList = [] → Waiting s' r id ∧ consumptions r event.toList = 0) ∧
      ∀ d, settlements r event.toList = [d] →
        Done s' r d (consumptions r event.toList) ∧ (r, id) ∈ s'.graces := by
  have hother {key : Text} {r' : Nat} {rest} (hkey : s.view key = some (r', rest))
      (hr : r' ≠ r) : id ≠ key :=
    fun h => hr ((hs.key_eq_iff hkey hw).mp h.symm)
  cases hchange with
  | same => exact ⟨fun _ => ⟨hw, rfl⟩, nofun⟩
  | registered record _ hnone hseen =>
    have hne : id ≠ record.id := by
      rintro rfl
      rw [hw] at hnone
      cases hnone
    exact ⟨fun _ => ⟨by rw [Waiting, view_add hnone, if_neg hne, hw], rfl⟩, nofun⟩
  | @settled r' key d resolvedBy now _ hkey =>
    by_cases hr : r' = r
    · subst hr
      obtain rfl : id = key := hs.distinct _ _ _ _ _ hw hkey
      have hsettles : settlements r' (some (Event.settled r' d)).toList = [d] := by
        simp [settlements, settles]
      rw [hsettles]
      refine ⟨nofun, fun d' hd' => ?_⟩
      cases hd'
      refine ⟨⟨hs.fresh _ _ _ _ hw, .inl rfl, fun other resolved spendable hview => ?_⟩,
        List.mem_append_right _ (List.mem_singleton_self _)⟩
      rw [view_settleEntry hkey] at hview
      split at hview
      · cases hview
        exact ⟨rfl, fun h => ⟨rfl, of_decide_eq_true h⟩⟩
      · rename_i hne
        exact absurd (hs.distinct _ _ _ _ _ hview hw) hne
    · have hsettles : settlements r (some (Event.settled r' d)).toList = [] := by
        simp [settlements, settles, hr]
      rw [hsettles]
      have hwaits : Waiting (s.settleEntry key r' d resolvedBy now) r id := by
        rw [Waiting, view_settleEntry hkey, if_neg (hother hkey hr), hw]
      exact ⟨fun _ => ⟨hwaits, rfl⟩, nofun⟩
  | @consumed r' key _ hkey =>
    have hr : r' ≠ r := by
      rintro rfl
      obtain rfl : id = key := hs.distinct _ _ _ _ _ hw hkey
      rw [hw] at hkey
      cases hkey
    refine ⟨fun _ => ⟨by rw [Waiting, view_consumed hkey, if_neg (hother hkey hr), hw], ?_⟩, nofun⟩
    simp [consumptions, hr]
  | @ended r' spendable key _ hkey =>
    have hr : r' ≠ r := by
      rintro rfl
      obtain rfl : id = key := hs.distinct _ _ _ _ _ hw hkey
      rw [hw] at hkey
      cases hkey
    exact ⟨fun _ => ⟨by rw [Waiting, view_endGrace hkey, if_neg (hother hkey hr), hw], rfl⟩, nofun⟩

theorem Done.of_view (h : Done s r d n) (hnext : s.nextRegistration ≤ s'.nextRegistration)
    (hview : ∀ id resolved spendable, s'.view id = some (r, resolved, spendable) →
      s.view id = some (r, resolved, spendable)) : Done s' r d n :=
  ⟨h.known.trans_le hnext, h.once, fun id _ _ hid => h.decided id _ _ (hview id _ _ hid)⟩

/-- Nothing settles a registration again, and its decision is consumed once. -/
theorem Done.change (h : Done s r d n) (hs : Sound s) (hchange : Change s op event s') :
    settlements r event.toList = [] ∧ Done s' r d (n + consumptions r event.toList) := by
  cases hchange with
  | same => exact ⟨rfl, h⟩
  | registered record _ hnone hseen =>
    refine ⟨rfl, h.of_view (Nat.le_succ _) fun id resolved spendable hid => ?_⟩
    rw [view_add hnone, hseen] at hid
    split at hid
    · cases hid
      exact absurd h.known (lt_irrefl _)
    · exact hid
  | @settled r' key d' resolvedBy now _ hkey =>
    have hr : r' ≠ r := by
      rintro rfl
      cases (h.decided key _ _ hkey).1
    refine ⟨by simp [settlements, settles, hr],
      h.of_view (Nat.le_refl _) fun id resolved spendable hid => ?_⟩
    rw [view_settleEntry hkey] at hid
    split at hid
    · cases hid
      exact absurd rfl hr
    · exact hid
  | @consumed r' key _ hkey =>
    refine ⟨rfl, ?_⟩
    by_cases hr : r' = r
    · subst hr
      obtain ⟨rfl, hd⟩ := (h.decided key _ _ hkey).2 rfl
      have hcount : consumptions r' (some (Event.consumed r')).toList = 1 := by simp [consumptions]
      rw [hcount]
      refine ⟨h.known, .inr ⟨rfl, hd⟩, fun id resolved spendable hid => ?_⟩
      rw [view_consumed hkey] at hid
      split at hid
      · cases hid
        exact ⟨rfl, nofun⟩
      · rename_i hne
        exact absurd (hs.distinct _ _ _ _ _ hid hkey) hne
    · have hcount : consumptions r (some (Event.consumed r')).toList = 0 := by
        simp [consumptions, hr]
      rw [hcount]
      refine h.of_view (Nat.le_refl _) fun id resolved spendable hid => ?_
      rw [view_consumed hkey] at hid
      split at hid
      · cases hid
        exact absurd rfl hr
      · exact hid
  | @ended r' spendable key _ hkey =>
    refine ⟨rfl, h.of_view (Nat.le_refl _) fun id resolved spendable hid => ?_⟩
    rw [view_endGrace hkey] at hid
    split at hid
    · cases hid
    · exact hid

-- ---
-- Runs
-- ---

theorem run_cons (h : s.run (op :: ops) = some (s', events)) :
    ∃ s₁ event rest, s.step op = some (s₁, event) ∧ s₁.run ops = some (s', rest) ∧
      events = event.toList ++ rest := by
  obtain ⟨⟨s₁, event⟩, hstep, hnext⟩ := Option.bind_eq_some_iff.mp h
  obtain ⟨⟨s₂, rest⟩, hops, hlast⟩ := Option.map_eq_some_iff.mp hnext
  cases hlast
  exact ⟨s₁, event, rest, hstep, hops, rfl⟩

theorem settlements_append (r : Nat) (events rest : List Event) :
    settlements r (events ++ rest) = settlements r events ++ settlements r rest :=
  List.filterMap_append ..

theorem consumptions_append (r : Nat) (events rest : List Event) :
    consumptions r (events ++ rest) = consumptions r events + consumptions r rest :=
  List.count_append ..

theorem Done.run (h : Done s r d n) (hs : Sound s) (hrun : s.run ops = some (s', events)) :
    settlements r events = [] ∧ Done s' r d (n + consumptions r events) := by
  induction ops generalizing s n events with
  | nil =>
    cases hrun
    exact ⟨rfl, h⟩
  | cons op ops ih =>
    obtain ⟨s₁, event, rest, hstep, hops, rfl⟩ := run_cons hrun
    have hchange := step_change hs hstep
    obtain ⟨hsettles, hdone⟩ := h.change hs hchange
    obtain ⟨hrest, hlast⟩ := ih hdone (hs.change hchange) hops
    rw [settlements_append, consumptions_append, hsettles, hrest, ← Nat.add_assoc]
    exact ⟨rfl, hlast⟩

theorem grace_run (hs : Sound s) (hmem : (r, id) ∈ s.graces) (hrun : s.run ops = some (s', events))
    (hne : ∀ op ∈ ops, op ≠ .graceEnds r) : (r, id) ∈ s'.graces := by
  induction ops generalizing s events with
  | nil =>
    cases hrun
    exact hmem
  | cons op ops ih =>
    obtain ⟨s₁, event, rest, hstep, hops, rfl⟩ := run_cons hrun
    obtain ⟨hop, hrest⟩ := List.forall_mem_cons.mp hne
    exact ih (hs.change (step_change hs hstep)) ((step_change hs hstep).grace hmem hop) hops hrest

/-- A waiting registration is settled by the first call or timer that decides it. -/
theorem Waiting.run (hw : Waiting s r id) (hs : Sound s) (hrun : s.run ops = some (s', events)) :
    settlements r events = (ops.findSome? (·.decision? r id)).toList ∧
      (ops.findSome? (·.decision? r id) = none → consumptions r events = 0) ∧
      ∀ d, ops.findSome? (·.decision? r id) = some d → Done s' r d (consumptions r events) ∧
        ((∀ op ∈ ops, op ≠ .graceEnds r) → (r, id) ∈ s'.graces) := by
  induction ops generalizing s events with
  | nil =>
    cases hrun
    exact ⟨rfl, fun _ => rfl, nofun⟩
  | cons op ops ih =>
    obtain ⟨s₁, event, rest, hstep, hops, rfl⟩ := run_cons hrun
    have hchange := step_change hs hstep
    have hdecides := hchange.decides hw
    obtain ⟨hwaits, hdone⟩ := hw.change hs hchange
    rw [settlements_append, consumptions_append, List.findSome?_cons]
    cases hdecision : op.decision? r id with
    | none =>
      rw [hdecision] at hdecides
      obtain ⟨hw, hcount⟩ := hwaits hdecides
      rw [hdecides, hcount, Nat.zero_add]
      obtain ⟨hsettles, hnone, hsome⟩ := ih hw (hs.change hchange) hops
      exact ⟨hsettles, hnone, fun d hd =>
        (hsome d hd).imp_right fun hgrace hne => hgrace (List.forall_mem_cons.mp hne).2⟩
    | some d =>
      rw [hdecision] at hdecides
      obtain ⟨hdone, hgrace⟩ := hdone d hdecides
      obtain ⟨hrest, hlast⟩ := hdone.run (hs.change hchange) hops
      rw [hdecides, hrest]
      refine ⟨rfl, nofun, fun d' hd' => ?_⟩
      cases hd'
      exact ⟨hlast, fun hne =>
        grace_run (hs.change hchange) hgrace hops (List.forall_mem_cons.mp hne).2⟩

theorem register_of_grace (hs : Sound s) (hmem : (r, record.id) ∈ s.graces) :
    s.register record = .error (alreadyResolved record.id) := by
  obtain ⟨spendable, hview⟩ := hs.graces r _ hmem
  obtain ⟨entry, hget, hseen⟩ := Option.map_eq_some_iff.mp hview
  have hresolved : entry.record.resolvedAtMs ≠ none := by
    rw [← Option.isSome_iff_ne_none]
    exact (Prod.mk.inj (Prod.mk.inj hseen).2).1
  unfold register
  rw [hget]
  exact if_neg hresolved

theorem waiting_of_registered (hs : Sound s)
    (hstep : s.step op = some (s', some (.registered r id))) : Waiting s' r id := by
  have hchange := step_change hs hstep
  generalize hevent : some (Event.registered r id) = event at hchange
  cases hchange with
  | registered record _ hnone hseen =>
    cases hevent
    rw [Waiting, view_add hnone, if_pos rfl, hseen]
  | _ => cases hevent

-- ---
-- Looking up pending ids
-- ---

def IsPending (s : ExecApprovalManager P) (id : Text) : Prop :=
  ∃ entry, s.get id = some entry ∧ entry.record.resolvedAtMs = none

/-- The id begins with the trimmed input, whatever the case of both. -/
def Begins (toLowerCase : Text → Text) (input id : Text) : Prop :=
  toLowerCase (trimChars input) <+: toLowerCase id

theorem lookupPendingId_exact {toLowerCase : Text → Text} {input : Text}
    (h : s.lookupPendingId toLowerCase input = .exact id) :
    id = trimChars input ∧ s.IsPending id := by
  simp only [lookupPendingId] at h
  split at h
  · cases h
  · split at h
    · rename_i entry hget
      split at h
      · rename_i hnew
        cases h
        exact ⟨rfl, entry, hget, hnew⟩
      · cases h
    · split at h <;> cases h

theorem lookupPendingId_prefixed (hs : Sound s) {toLowerCase : Text → Text} {input : Text}
    (h : s.lookupPendingId toLowerCase input = .prefixed id) :
    s.IsPending id ∧ Begins toLowerCase input id ∧
      ∀ other, s.IsPending other → Begins toLowerCase input other → other = id := by
  simp only [lookupPendingId] at h
  split at h
  · cases h
  · split at h
    · split at h <;> cases h
    · split at h
      · cases h
      · rename_i only hfound
        cases h
        have hmem {other : Text} : other = id ↔ ∃ entry, (other, entry) ∈ s.pending ∧
            entry.record.resolvedAtMs = none ∧ Begins toLowerCase input other := by
          rw [← List.mem_singleton, ← hfound]
          simp [Begins]
        obtain ⟨entry, hentry, hnew, hbegins⟩ := hmem.mp rfl
        refine ⟨⟨entry, Members.lookup_of_mem hs.nodup hentry, hnew⟩, hbegins, ?_⟩
        rintro other ⟨entry, hget, hnew⟩ hbegins
        exact hmem.mpr ⟨entry, Members.mem_of_lookup hget, hnew, hbegins⟩
      · cases h

-- ---
-- The law
-- ---

/-- What every reachable state promises: of a registration that a call makes there, in whatever
run follows, and of the lookups. -/
structure LifeCycleLaw (toLowerCase : Text → Text) (s : ExecApprovalManager P) : Prop where
  settles : ∀ op s₁ r id ops s₂ events, s.step op = some (s₁, some (.registered r id)) →
    s₁.run ops = some (s₂, events) →
      settlements r events = (ops.findSome? (·.decision? r id)).toList
  consumes : ∀ op s₁ r id ops s₂ events, s.step op = some (s₁, some (.registered r id)) →
    s₁.run ops = some (s₂, events) →
      consumptions r events ≤ 1 ∧ (consumptions r events ≠ 0 →
        ops.findSome? (·.decision? r id) = some (some .allowOnce))
  refuses : ∀ op s₁ r id ops s₂ events, s.step op = some (s₁, some (.registered r id)) →
    s₁.run ops = some (s₂, events) → (ops.findSome? (·.decision? r id)).isSome →
    (∀ op ∈ ops, op ≠ .graceEnds r) →
      ∀ record, record.id = id → s₂.register record = .error (alreadyResolved id)
  finds : ∀ input id, s.lookupPendingId toLowerCase input = .exact id →
    id = trimChars input ∧ s.IsPending id
  findsPrefix : ∀ input id, s.lookupPendingId toLowerCase input = .prefixed id →
    s.IsPending id ∧ Begins toLowerCase input id ∧
      ∀ other, s.IsPending other → Begins toLowerCase input other → other = id

theorem Sound.run (hs : Sound s) (hrun : s.run ops = some (s', events)) : Sound s' := by
  induction ops generalizing s events with
  | nil =>
    cases hrun
    exact hs
  | cons op ops ih =>
    obtain ⟨s₁, event, rest, hstep, hops, rfl⟩ := run_cons hrun
    exact ih (hs.change (step_change hs hstep)) hops

theorem execApproval_lifeCycle (toLowerCase : Text → Text) (h : (system (P := P)).Reachable s) :
    LifeCycleLaw toLowerCase s := by
  have hs := sound_of_reachable h
  refine ⟨?_, ?_, ?_, fun _ _ => lookupPendingId_exact, fun _ _ => lookupPendingId_prefixed hs⟩
  · intro op s₁ r id ops s₂ events hstep hrun
    have hw := waiting_of_registered hs hstep
    exact (hw.run (hs.change (step_change hs hstep)) hrun).1
  · intro op s₁ r id ops s₂ events hstep hrun
    have hw := waiting_of_registered hs hstep
    obtain ⟨-, hnone, hsome⟩ := hw.run (hs.change (step_change hs hstep)) hrun
    cases hdecision : ops.findSome? (·.decision? r id) with
    | none => simp [hnone hdecision]
    | some d =>
      rcases (hsome d hdecision).1.once with hzero | ⟨hone, rfl⟩
      · simp [hzero]
      · simp [hone]
  · rintro op s₁ r id ops s₂ events hstep hrun hdecided hne record rfl
    have hs₁ := hs.change (step_change hs hstep)
    obtain ⟨d, hd⟩ := Option.isSome_iff_exists.mp hdecided
    have hw := waiting_of_registered hs hstep
    exact register_of_grace (hs₁.run hrun) ((hw.run hs₁ hrun).2.2 d hd |>.2 hne)

/-- An approval is asked for under the id `a`. -/
def asked : ExecApprovalManager Unit := empty.add (create () 10 (some ['a']) [] 0)

theorem reachable_asked : (system (P := Unit)).Reachable asked := by
  have hstep : (system (P := Unit)).step empty (.register () 10 (some ['a']) [] 0) = some asked :=
    rfl
  exact .step (.init rfl) hstep

theorem execApproval_lifeCycle_asked : LifeCycleLaw (·.map Char.toLower) asked :=
  execApproval_lifeCycle _ reachable_asked

/-- The input is trimmed before it is looked up. -/
theorem not_lookupPendingId_verbatim :
    (system (P := Unit)).Reachable asked ∧
      asked.lookupPendingId (·.map Char.toLower) [' ', 'a'] = .exact ['a'] ∧
      ['a'] ≠ [' ', 'a'] ∧ ¬ [' ', 'a'] <+: ['a'] :=
  ⟨reachable_asked, by decide⟩

end OpenClaw.ExecApproval.ExecApprovalManager
