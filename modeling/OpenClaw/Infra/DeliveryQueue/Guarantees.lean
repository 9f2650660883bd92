import OpenClaw.Infra.DeliveryQueue.Entry

/-!
# What storing, acknowledging and failing guarantee

The invariant of an entry, and triples over its view: an operation of the
queue keeps the invariant at every point where a crash may come, and a program
about other entries leaves the view alone.
-/

namespace OpenClaw.DeliveryQueue

open AtomicProgram

variable {P : Type} {id : String} {v : View P id} {busy : Bool}

-- ---
-- The invariant of an entry
-- ---

/-- The invariant. An attempt may be in progress only if `busy`. -/
structure View.Safe (busy : Bool) (v : View P id) : Prop where
  places : v.entry.isSome.toNat + v.inFailed.toNat + v.history.acknowledged.toNat =
    v.history.stored.toNat
  opened : v.history.attempting = true → v.entry.isSome = true
  replayed : v.history.replayed = false
  bound : v.history.attempts ≤ MAX_RETRIES + v.history.interruptions
  counted : ∀ content, v.entry = some content → v.history.attempts ≤
    content.1.retryCount + v.history.interruptions + v.history.attempting.toNat
  busy : v.history.attempting = true → busy = true

theorem View.Safe.idle (h : v.Safe false) : v.history.attempting = false :=
  Bool.eq_false_iff.mpr fun ha => Bool.false_ne_true (h.busy ha)

theorem View.Safe.of_idle (h : v.Safe busy) (hidle : v.history.attempting = false)
    (busy' : Bool) : v.Safe busy' :=
  { h with busy := fun ha => absurd ha (by simp [hidle]) }

theorem View.Safe.of_none (h : v.Safe busy) (hentry : v.entry = none) (busy' : Bool) :
    v.Safe busy' :=
  h.of_idle (Bool.eq_false_iff.mpr fun ha => by simpa [hentry] using h.opened ha) busy'

theorem View.Safe.interrupt (h : v.Safe busy) : v.interrupt.Safe busy' where
  places := h.places
  opened := by simp [View.interrupt, History.interrupt]
  replayed := h.replayed
  bound := h.bound.trans (Nat.add_le_add_left (Nat.le_add_right _ _) _)
  counted content hentry := by
    have := h.counted content hentry
    simp only [View.interrupt, History.interrupt, Bool.toNat_false]
    omega
  busy := by simp [View.interrupt, History.interrupt]

theorem View.Safe.write (h : v.Safe busy) (pid : Nat) (content : Content P (.json id)) :
    (v.write pid content).Safe busy :=
  { h with }

theorem View.Safe.attempt (h : v.Safe false) (hentry : v.entry = some content)
    (hretry : content.1.retryCount < MAX_RETRIES) : v.attempt.Safe true where
  places := h.places
  opened _ := by simp [View.attempt, hentry]
  replayed := by
    have hacknowledged : v.history.acknowledged = false := by
      have := h.places
      have := v.history.stored.toNat_le
      cases hack : v.history.acknowledged <;> simp_all; omega
    simp [View.attempt, History.attempt, hacknowledged, h.replayed]
  bound := by
    have := h.counted content hentry
    simp only [h.idle, Bool.toNat_false] at this
    simp only [View.attempt, History.attempt]
    omega
  counted content hentry := by
    have := h.counted content hentry
    simp only [h.idle, Bool.toNat_false] at this
    simp only [View.attempt, History.attempt, Bool.toNat_true]
    omega
  busy _ := rfl

/-- What is stored accounts for the attempts so far, and either replaces the
entry or is the first of its id. -/
theorem View.Safe.store (h : v.Safe busy) (pid : Nat)
    (hcount : v.history.attempts ≤ content.1.retryCount + v.history.interruptions)
    (hplace : v.entry.isSome = true ∨ v.history.stored = false) :
    (v.store pid content).Safe busy' where
  places := by
    have := h.places
    have := v.history.stored.toNat_le
    simp only [View.store, Option.isSome_some, Bool.toNat_true]
    rcases hplace with hplace | hplace <;> simp only [hplace, Bool.toNat_true, Bool.toNat_false] at * <;>
      omega
  opened := by simp [View.store]
  replayed := h.replayed
  bound := h.bound
  counted _ hentry := by
    cases hentry
    simpa [View.store] using hcount
  busy := by simp [View.store]

theorem View.Safe.acknowledge (h : v.Safe busy) (hentry : v.entry.isSome = true) :
    v.acknowledge.Safe busy' where
  places := by
    have := h.places
    have := v.history.stored.toNat_le
    simp only [hentry, View.acknowledge, Option.isSome_none, Bool.toNat_true, Bool.toNat_false] at *
    omega
  opened := by simp [View.acknowledge]
  replayed := h.replayed
  bound := h.bound
  counted := by simp [View.acknowledge]
  busy := by simp [View.acknowledge]

theorem View.Safe.moveToFailed (h : v.Safe busy) (hentry : v.entry.isSome = true) :
    v.moveToFailed.Safe busy' where
  places := by
    have := h.places
    have := v.history.stored.toNat_le
    simp only [hentry, View.moveToFailed, Option.isSome_none, Bool.toNat_true, Bool.toNat_false] at *
    omega
  opened := by simp [View.moveToFailed]
  replayed := h.replayed
  bound := h.bound
  counted := by simp [View.moveToFailed]
  busy := by simp [View.moveToFailed]

-- ---
-- Triples over the view
-- ---

/-- From the view `v`, and while the others leave the view alone, the entry is
safe at each point of the program and `post` holds of its end. -/
def Guarantees (busy : Bool) (p : Prog P α) (v : View P id) (post : α → View P id → Prop) : Prop :=
  ∀ w, view id w = v → p.Keeps World.perform (view id) (fun w => (view id w).Safe busy)
    (fun a w => post a (view id w)) w

variable {post post' : α → View P id → Prop}

theorem Guarantees.mono {p : Prog P α} (h : Guarantees busy p v post)
    (himp : ∀ a v', post a v' → post' a v') : Guarantees busy p v post' :=
  fun w hw => (h w hw).mono (fun a w => himp a (view id w)) fun _ h => h

theorem Guarantees.pure (h : post a v) : Guarantees busy (pure a) v post :=
  fun _ hw w₁ h₁ => show post _ (view id w₁) from (h₁.trans hw).symm ▸ h

theorem Guarantees.bind {p : Prog P α} {f : α → Prog P β} {post : β → View P id → Prop}
    (h : Guarantees busy p v fun a v' => Guarantees busy (f a) v' post) :
    Guarantees busy (p >>= f) v post :=
  fun w hw => .bind ((h w hw).mono (fun _ w hf => hf w rfl) fun _ h => h)

theorem Guarantees.ask {o : Op P} {post : Answer P o → View P id → Prop} (hv : v.Safe busy)
    (h : ∀ w c a w', view id w = v → w.perform o c = some (a, w') → post a (view id w')) :
    Guarantees busy (ask o) v post :=
  fun _ hw => .ask (fun _ h₁ => (h₁.trans hw) ▸ hv) fun w₁ c a w₂ _ h₁ hp h₃ =>
    h₃ ▸ h w₁ c a w₂ (h₁.trans hw) hp

-- ---
-- Programs about other entries
-- ---

/-- The program leaves this entry alone. -/
def Spares (id : String) (p : Prog P α) : Prop :=
  p.Frames World.perform (Quiet id)

theorem Guarantees.and_returns {p : Prog P α} {Q : α → Prop} (h : Guarantees busy p v post)
    (hr : p.Returns Q) : Guarantees busy p v fun a v' => post a v' ∧ Q a :=
  fun w hw => (h w hw).and_returns hr

/-- A program about other entries, while no attempt is in progress. -/
theorem Guarantees.of_spares {p : Prog P α} (hp : Spares id p)
    (hv : v.Safe false) : Guarantees busy p v fun _ v' => v' = v := by
  intro w hw
  have hsame : p.Keeps World.perform (view id) (fun w => view id w = v)
      (fun _ w => view id w = v) w :=
    Program.Frames.keeps hp (fun w w' hw hquiet => hquiet (hw ▸ hv.idle))
      (fun w w' hw h => h.trans hw) hw
  exact hsame.mono (fun _ _ h => h) fun w (hw : view id w = v) =>
    hw ▸ hv.of_idle hv.idle busy

theorem Spares.pure (a : α) : Spares id (Pure.pure a : Prog P α) :=
  trivial

theorem Spares.bind {p : Prog P α} {f : α → Prog P β} (hp : Spares id p)
    (hf : ∀ a, Spares id (f a)) : Spares id (p >>= f) :=
  Program.Frames.bind hp hf

theorem Spares.ask {o : Op P} (ho : o.about ≠ some id) : Spares id (ask o) :=
  Program.Frames.ask fun _ _ _ _ hp => perform_quiet ho hp

theorem unlinkMarker_spares (i : String) :
    Spares id (unlinkBestEffort (.delivered i) : Prog P _) :=
  .bind (.ask (by simp)) fun _ => .pure _

theorem writeQueueEntry_spares (hne : i ≠ id) (pid : Nat) (content : Content P (.json i)) :
    Spares id (writeQueueEntry pid i content) := by
  refine .bind (.ask (by simpa [Path.id] using hne)) fun r => ?_
  cases r with
  | error _ => exact .pure _
  | ok => exact .ask (by simpa [Path.id] using hne)

theorem failDelivery_spares (hne : i ≠ id) (pid : Nat) (error : String) :
    Spares id (failDelivery pid i error : Prog P _) := by
  refine .bind (.ask (by simp)) fun r => ?_
  cases r with
  | error _ => exact .pure _
  | ok content => exact .bind (.ask (by simp)) fun _ => writeQueueEntry_spares hne pid _

theorem ensureQueueDir_spares : Spares id (ensureQueueDir : Prog P _) := by
  refine .bind (.ask (by simp)) fun r => ?_
  cases r with
  | error _ => exact .pure _
  | ok => exact .ask (by simp)

theorem enqueueDelivery_spares (hne : i ≠ id) (pid : Nat) (payload : P) :
    Spares id (enqueueDelivery pid i payload) := by
  refine ensureQueueDir_spares.bind fun r => ?_
  cases r with
  | error _ => exact .pure _
  | ok => exact .bind (.ask (by simp)) fun _ => writeQueueEntry_spares hne pid _

theorem moveToFailed_spares (hne : i ≠ id) : Spares id (moveToFailed i : Prog P _) := by
  refine .bind (.ask (by simp)) fun r => ?_
  cases r with
  | error _ => exact .pure _
  | ok => exact .ask (by simpa [Path.id] using hne)

theorem ackDelivery_spares (hne : i ≠ id) : Spares id (ackDelivery i : Prog P _) := by
  refine .bind (.ask (by simpa [Path.id] using hne)) fun r => ?_
  cases r with
  | error err =>
    dsimp only
    split
    · exact .bind (unlinkMarker_spares i) fun _ => .pure _
    · exact .pure _
  | ok => exact .bind (unlinkMarker_spares i) fun _ => .pure _

theorem deliverAndAck_spares {entry : QueuedDelivery P} (hne : entry.id ≠ id) :
    Spares id (deliverAndAck entry) := by
  refine .bind (.ask (by simpa using hne)) fun r => ?_
  cases r with
  | error _ => exact .pure _
  | ok =>
    refine (ackDelivery_spares hne).bind fun r => ?_
    cases r <;> exact .pure _

theorem recoverEntry_spares {entry : QueuedDelivery P} (hne : entry.id ≠ id) (pid : Nat) :
    Spares id (recoverEntry pid entry) := by
  refine (deliverAndAck_spares hne).bind fun r => ?_
  cases r with
  | ok => exact .pure _
  | error errMsg =>
    dsimp only
    split
    · exact .bind (.bind (moveToFailed_spares hne) fun _ => .pure _) fun _ => .pure _
    · exact .bind (failDelivery_spares hne pid errMsg) fun _ => .pure _

theorem deferEntry_spares {entry : QueuedDelivery P} (hne : entry.id ≠ id) (pid : Nat) :
    Spares id (deferEntry pid entry) :=
  .bind (failDelivery_spares hne pid _) fun _ => .pure _

theorem loadEntry_spares (hne : i ≠ id) (pid : Nat) : Spares id (loadEntry pid i : Prog P _) := by
  refine .bind (.ask (by simp)) fun r => ?_
  cases r with
  | error _ => exact .pure _
  | ok =>
    refine .bind (.ask (by simp)) fun r => ?_
    cases r with
    | error _ => exact .pure _
    | ok content =>
      dsimp only
      split
      · refine .bind (writeQueueEntry_spares hne pid _) fun r => ?_
        cases r <;> exact .pure _
      · exact .pure _

theorem unlinkMarkers_spares (files : List Path) : Spares id (unlinkMarkers files : Prog P _) := by
  induction files with
  | nil => exact .pure _
  | cons path files ih =>
    cases path with
    | delivered i => exact .bind (unlinkMarker_spares i) fun _ => ih
    | json i => exact ih
    | tmp i pid => exact ih
    | failed i => exact ih

-- ---
-- Storage
-- ---

theorem now_guarantees (hv : v.Safe busy) :
    Guarantees busy (ask .now) v fun _ v' => v' = v :=
  .ask hv fun _ _ _ _ hw hp => perform_now hp ▸ hw

theorem mkdir_guarantees (hv : v.Safe busy) (dir : String) :
    Guarantees busy (ask (.mkdir dir)) v fun r v' =>
      v'.Safe busy ∧ (r = .ok () ∧ v' = v ∨ (∃ err, r = .error err) ∧ v'.Safe false) := by
  refine .ask hv fun w c a w' hw hp => ?_
  rcases perform_mkdir id hp with ⟨ha, rfl⟩ | ⟨ha, hv'⟩
  · exact ⟨hw ▸ hv, .inl ⟨ha, hw⟩⟩
  · rw [hv', hw]
    exact ⟨hv.interrupt, .inr ⟨ha, hv.interrupt⟩⟩

/-- Writing what accounts for the attempts so far ends the one in progress. -/
theorem writeQueueEntry_guarantees (hv : v.Safe busy) (pid : Nat)
    {content : Content P (.json id)}
    (hcount : v.history.attempts ≤ content.1.retryCount + v.history.interruptions)
    (hplace : v.entry.isSome = true ∨ v.history.stored = false) :
    Guarantees busy (writeQueueEntry pid id content) v fun r v' =>
      v'.Safe false ∧ (r = .ok () → v'.entry = some content) := by
  refine .bind (.ask hv fun w c a w' hw hp => ?_)
  subst hw
  rcases perform_writeFile hp with ⟨rfl, hv'⟩ | ⟨⟨err, rfl⟩, hv'⟩
  · rw [hv']
    refine .ask (hv.write pid _) fun w₁ c a w₂ hw₁ hp => ?_
    have htmp : (view id w₁).tmp pid = some content := by simp [hw₁, View.write, Content.move]
    have hview : view id w₂ = ((view id w).write pid content).store pid content ∨
        view id w₂ = ((view id w).write pid content).interrupt ∧ ∃ err, a = .error err := by
      rw [show (view id w).write pid content = view id w₁ from hw₁.symm]
      exact (perform_store htmp hp).imp And.right And.symm
    rcases hview with hv₂ | ⟨hv₂, err, rfl⟩
    · rw [hv₂]
      exact ⟨(hv.write pid content).store pid hcount hplace, fun _ => rfl⟩
    · rw [hv₂]
      exact ⟨(hv.write pid content).interrupt, by simp⟩
  · rw [hv']
    exact .pure ⟨hv.interrupt, by simp⟩

/-- A recorded failure ends the attempt that failed. -/
theorem failDelivery_guarantees (hv : v.Safe busy) (pid : Nat) (error : String) :
    Guarantees busy (failDelivery pid id error) v fun _ v' => v'.Safe false := by
  refine .bind (.ask hv fun w c a w' hw hp => ?_)
  subst hw
  rcases perform_readFile hp with ⟨content, rfl, hentry, rfl⟩ | ⟨⟨err, rfl⟩, hentry, rfl⟩ |
    ⟨⟨err, rfl⟩, hv'⟩
  · refine .bind ((now_guarantees hv).mono fun now v' hv' => ?_)
    subst hv'
    refine (writeQueueEntry_guarantees hv pid ?_ (.inl (by simp [hentry]))).mono fun _ _ h => h.1
    have := hv.counted content hentry
    have := (view id w').history.attempting.toNat_le
    simp only [failed]
    omega
  · exact .pure (hv.of_none hentry false)
  · rw [hv']
    exact .pure hv.interrupt

theorem moveToFailed_guarantees (hv : v.Safe busy) :
    Guarantees busy (moveToFailed id) v fun _ v' => v'.Safe false := by
  refine .bind ((mkdir_guarantees hv _).mono fun a v' hv' => ?_)
  rcases hv' with ⟨hsafe, ⟨rfl, rfl⟩ | ⟨⟨err, rfl⟩, hidle⟩⟩
  · refine .ask hv fun w c a w' hw hp => ?_
    subst hw
    cases hentry : (view id w).entry with
    | some content =>
      rcases perform_moveToFailed hentry hp with ⟨-, hv'⟩ | ⟨-, hv'⟩ <;> rw [hv']
      · exact hv.moveToFailed (by simp [hentry])
      · exact hv.interrupt
    | none =>
      rcases rename_missing id hentry hp with ⟨-, rfl⟩ | ⟨-, hv'⟩
      · exact hv.of_none hentry false
      · rw [hv']
        exact hv.interrupt
  · exact .pure hidle

theorem ackDelivery_guarantees (hv : v.Safe busy) :
    Guarantees busy (ackDelivery id) v fun _ v' => v'.Safe false := by
  refine .bind (.ask hv fun w c a w' hw hp => ?_)
  subst hw
  have hdone (v' : View P id) (hv' : v'.Safe false) :
      Guarantees busy (do unlinkBestEffort (.delivered id); pure (.ok ()) : Prog P (Except NodeError Unit))
        v' fun _ v' => v'.Safe false :=
    .bind ((Guarantees.of_spares (unlinkMarker_spares id) hv').mono fun _ _ h => .pure (h ▸ hv'))
  have hended : view id w' = (view id w).acknowledge ∧ (view id w).entry.isSome = true ∧ a = .ok () ∨
      (view id w').Safe false ∧ ∃ err, a = .error err := by
    cases hentry : (view id w).entry with
    | some content =>
      rcases perform_acknowledge hentry hp with ⟨ha, hv'⟩ | ⟨ha, hv'⟩
      · exact .inl ⟨hv', rfl, ha⟩
      · exact .inr ⟨hv' ▸ hv.interrupt, ha⟩
    | none =>
      rcases rename_missing id hentry hp with ⟨ha, rfl⟩ | ⟨ha, hv'⟩
      · exact .inr ⟨hv.of_none hentry false, _, ha⟩
      · exact .inr ⟨hv' ▸ hv.interrupt, ha⟩
  rcases hended with ⟨hv', hentry, rfl⟩ | ⟨hsafe, err, rfl⟩
  · exact hdone _ (hv' ▸ hv.acknowledge hentry)
  · dsimp only
    split
    · exact hdone _ hsafe
    · exact .pure hsafe

theorem enqueueDelivery_guarantees (hv : v.Safe false) (pid : Nat) (payload : P)
    (hstored : v.history.stored = false) (hattempts : v.history.attempts = 0) :
    Guarantees busy (enqueueDelivery pid id payload) v fun _ v' => v'.Safe false := by
  have hbusy := hv.of_idle hv.idle busy
  have hdir : Guarantees busy ensureQueueDir v fun r v' =>
      v'.Safe false ∧ (r = .ok () → v' = v) := by
    refine .bind ((mkdir_guarantees hbusy _).mono fun a v' hv' => ?_)
    rcases hv' with ⟨-, ⟨rfl, rfl⟩ | ⟨⟨err, rfl⟩, hidle⟩⟩
    · refine (mkdir_guarantees hbusy _).mono fun a v' hv' => ?_
      rcases hv' with ⟨-, ⟨rfl, rfl⟩ | ⟨⟨err, rfl⟩, hidle⟩⟩
      · exact ⟨hv, fun _ => rfl⟩
      · exact ⟨hidle, by simp⟩
    · exact .pure ⟨hidle, by simp⟩
  refine .bind (hdir.mono fun a v' hv' => ?_)
  obtain ⟨hsafe, hsame⟩ := hv'
  cases a with
  | error err => exact .pure hsafe
  | ok =>
    obtain rfl := hsame rfl
    refine .bind ((now_guarantees hbusy).mono fun now v₁ hv₁ => ?_)
    subst hv₁
    exact (writeQueueEntry_guarantees hbusy pid (by simp [hattempts]) (.inr hstored)).mono
      fun _ _ h => h.1

end OpenClaw.DeliveryQueue
