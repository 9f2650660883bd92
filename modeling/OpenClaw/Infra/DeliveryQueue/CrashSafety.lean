import OpenClaw.Infra.DeliveryQueue.Guarantees

/-!
# Crash safety of the delivery queue

A recovery pass keeps the invariant of each entry, so that it holds at every
point where a crash may come: each entry is in one place, was not attempted
after it was acknowledged, and was attempted no more often than its retry count
and its cut-off attempts account for.
-/

namespace OpenClaw.DeliveryQueue

open AtomicProgram

variable {P : Type} {id : String} {v : View P id} {busy : Bool}
  {post : α → View P id → Prop}

-- ---
-- Loading
-- ---

theorem perform_readdir (id : String) {w : World P} (h : w.perform .readdir c = some (a, w')) :
    (∃ files : List Path, a = .ok files ∧ files.Nodup ∧ w' = w) ∨
      (∃ err, a = .error err) ∧ (w' = w ∨ view id w' = (view id w).interrupt) := by
  cases c <;> simp only [World.perform, reduceCtorEq, Option.ite_none_right_eq_some,
    Option.some.injEq, Prod.mk.injEq] at h
  · obtain ⟨hperm, ha, hw⟩ := h
    exact .inl ⟨_, ha.symm, hperm.nodup_iff.mpr (w.files.keys_nodup.filter _), hw.symm⟩
  · exact .inr ⟨⟨_, h.2.1.symm⟩, .inl h.2.2.symm⟩
  · exact .inr ⟨⟨_, (fault_view id h).1⟩, .inr (fault_view id h).2⟩

theorem loadEntry_guarantees (hv : v.Safe false) (pid : Nat) :
    Guarantees busy (loadEntry pid id) v fun r v' =>
      v'.Safe false ∧ ∀ content, r = some content → v'.entry = some content := by
  have hbusy := hv.of_idle hv.idle busy
  refine .bind ((Guarantees.of_spares (.ask (by simp [Op.about])) hv).mono fun a v' hv' => ?_)
  subst hv'
  cases a with
  | error _ => exact .pure ⟨hv, by simp⟩
  | ok =>
    refine .bind (.ask hbusy fun w c a w' hw hp => ?_)
    subst hw
    rcases perform_readFile hp with ⟨content, rfl, hentry, rfl⟩ | ⟨⟨err, rfl⟩, -, rfl⟩ |
      ⟨⟨err, rfl⟩, hv'⟩
    · dsimp only
      split
      · refine .bind ((writeQueueEntry_guarantees hbusy pid ?_ (.inl (by simp [hentry]))).mono
          fun r v' hv' => ?_)
        · have := hv.counted content hentry
          simpa [normalized, normalizeLegacyQueuedDeliveryEntry_retryCount, hv.idle] using this
        · cases r with
          | error _ => exact .pure ⟨hv'.1, by simp⟩
          | ok => exact .pure ⟨hv'.1, fun _ h => Option.some.inj h ▸ hv'.2 rfl⟩
      · rename_i hmigrated
        refine .pure ⟨hv, fun _ h => ?_⟩
        rw [← Option.some.inj h, hentry, normalized_of_not_migrated (by simpa using hmigrated)]
    · exact .pure ⟨hv, by simp⟩
    · rw [hv']
      exact .pure ⟨hv.interrupt, by simp⟩

/-- The ids whose entries a listing has. -/
def Path.json? : Path → Option String
  | .json id => some id
  | .delivered _ | .tmp _ _ | .failed _ => none

theorem loadEntries_spares (pid : Nat) (hfiles : id ∉ files.filterMap Path.json?) :
    Spares id (loadEntries pid files : Prog P _) := by
  induction files with
  | nil => exact .pure _
  | cons path files ih =>
    cases path with
    | json i =>
      simp only [List.filterMap_cons, Path.json?, List.mem_cons, not_or] at hfiles
      exact .bind (loadEntry_spares (Ne.symm hfiles.1) pid) fun _ => .bind (ih hfiles.2) fun _ => .pure _
    | delivered i => exact ih hfiles
    | tmp i pid => exact ih hfiles
    | failed i => exact ih hfiles

theorem loadEntries_returns (pid : Nat) (files : List Path) :
    (loadEntries pid files : Prog P _).Returns fun entries =>
      (entries.map (·.id)).Sublist (files.filterMap Path.json?) := by
  induction files with
  | nil => exact .slnil
  | cons path files ih =>
    cases path with
    | json i =>
      refine .bind (.of_forall fun entry => .bind (ih.mono fun entries hentries => ?_))
      cases entry with
      | none => exact hentries.cons _
      | some content =>
        show List.Sublist (content.1.id :: entries.map (·.id)) (i :: _)
        rw [content.2]
        exact hentries.cons_cons i
    | delivered i => exact ih
    | tmp i pid => exact ih
    | failed i => exact ih

/-- The entries that are loaded are those on disk. -/
def Loaded (entries : List (QueuedDelivery P)) (v : View P id) : Prop :=
  ∀ e ∈ entries, ∀ h : e.id = id, v.entry = some ⟨e, h⟩

theorem loadEntries_guarantees (hv : v.Safe false) (pid : Nat)
    (hfiles : (files.filterMap Path.json?).Nodup) :
    Guarantees busy (loadEntries pid files) v fun entries v' => v'.Safe false ∧ Loaded entries v' := by
  induction files generalizing v with
  | nil => exact .pure ⟨hv, by simp [Loaded]⟩
  | cons path files ih =>
    cases path with
    | json i =>
      simp only [List.filterMap_cons, Path.json?, List.nodup_cons] at hfiles
      by_cases hne : i = id
      · -- the rest of the listing does not name the entry again
        subst hne
        refine .bind ((loadEntry_guarantees hv pid).mono fun entry v₁ hv₁ => ?_)
        refine .bind (((Guarantees.of_spares (loadEntries_spares pid hfiles.1) hv₁.1).and_returns
          (loadEntries_returns pid files)).mono fun entries v₂ hv₂ => .pure ?_)
        obtain ⟨rfl, hsub⟩ := hv₂
        refine ⟨hv₁.1, fun e he hid => ?_⟩
        rcases List.mem_append.mp he with he | he
        · obtain ⟨content, hcontent, rfl⟩ : ∃ content, entry = some content ∧ content.1 = e :=
            Option.map_eq_some_iff.mp (Option.mem_toList.mp he)
          exact hv₁.2 content hcontent
        · exact absurd (hid ▸ hsub.subset (List.mem_map_of_mem he)) hfiles.1
      · refine .bind ((Guarantees.of_spares (loadEntry_spares hne pid) hv).mono fun entry v₁ hv₁ => ?_)
        subst hv₁
        refine .bind ((ih hv hfiles.2).mono fun entries v₂ hv₂ => .pure ⟨hv₂.1, fun e he hid => ?_⟩)
        rcases List.mem_append.mp he with he | he
        · obtain ⟨content, -, rfl⟩ : ∃ content, entry = some content ∧ content.1 = e :=
            Option.map_eq_some_iff.mp (Option.mem_toList.mp he)
          exact absurd (content.2.symm.trans hid) hne
        · exact hv₂.2 e he hid
    | delivered i => exact ih hv hfiles
    | tmp i pid => exact ih hv hfiles
    | failed i => exact ih hv hfiles

theorem json_nodup {files : List Path} (h : files.Nodup) : (files.filterMap Path.json?).Nodup := by
  refine h.filterMap fun a b i ha hb => ?_
  cases a <;> cases b <;> simp_all [Path.json?]

theorem loadPendingDeliveries_guarantees (hv : v.Safe false) (pid : Nat) :
    Guarantees busy (loadPendingDeliveries pid) v fun r v' => v'.Safe false ∧
      ∀ entries, r = .ok entries → (entries.map (·.id)).Nodup ∧ Loaded entries v' := by
  have hbusy := hv.of_idle hv.idle busy
  refine .bind (.ask hbusy fun w c a w' hw hp => ?_)
  subst hw
  rcases perform_readdir id hp with ⟨files, rfl, hnodup, rfl⟩ | ⟨⟨err, rfl⟩, hw'⟩
  · refine .bind ((Guarantees.of_spares (unlinkMarkers_spares files) hv).mono fun _ v₁ hv₁ => ?_)
    subst hv₁
    refine .bind (((loadEntries_guarantees hv pid (json_nodup hnodup)).and_returns
      (loadEntries_returns pid files)).mono fun entries v₂ hv₂ => .pure ⟨hv₂.1.1, fun _ h => ?_⟩)
    cases h
    exact ⟨(json_nodup hnodup).sublist hv₂.2, hv₂.1.2⟩
  · have hsafe : (view id w').Safe false := by
      rcases hw' with rfl | hv'
      · exact hv
      · exact hv' ▸ hv.interrupt
    refine .pure ⟨hsafe, fun entries hentries => ?_⟩
    split at hentries
    · cases hentries
      exact ⟨.nil, by simp [Loaded]⟩
    · cases hentries

-- ---
-- Recovery
-- ---

/-- A failed attempt is still in progress: its outcome is not on disk yet. -/
theorem deliverAndAck_guarantees {entry : QueuedDelivery P} {v : View P entry.id}
    (hv : v.Safe false) (hentry : v.entry = some ⟨entry, rfl⟩)
    (hretry : entry.retryCount < MAX_RETRIES) :
    Guarantees true (deliverAndAck entry) v fun r v' =>
      v'.Safe true ∧ (r = .ok () → v'.Safe false) := by
  refine .bind (.ask (hv.of_idle hv.idle true) fun w c a w' hw hp => ?_)
  subst hw
  have hv' : (view entry.id w').Safe true := perform_deliver hp ▸ hv.attempt hentry hretry
  cases a with
  | error message => exact .pure ⟨hv', by simp⟩
  | ok =>
    refine .bind ((ackDelivery_guarantees hv').mono fun r v₁ hv₁ => ?_)
    cases r <;> exact .pure ⟨hv₁.of_idle hv₁.idle true, fun _ => hv₁⟩

theorem recoverEntry_guarantees {entry : QueuedDelivery P} {v : View P entry.id}
    (hv : v.Safe false) (hentry : v.entry = some ⟨entry, rfl⟩)
    (hretry : entry.retryCount < MAX_RETRIES) (pid : Nat) :
    Guarantees true (recoverEntry pid entry) v fun _ v' => v'.Safe false := by
  refine .bind ((deliverAndAck_guarantees hv hentry hretry).mono fun r v₁ hv₁ => ?_)
  cases r with
  | ok => exact .pure (hv₁.2 rfl)
  | error errMsg =>
    dsimp only
    split
    · exact .bind (.bind ((moveToFailed_guarantees hv₁.1).mono fun _ _ h => .pure (.pure h)))
    · exact .bind ((failDelivery_guarantees hv₁.1 pid errMsg).mono fun _ _ h => .pure h)

theorem Guarantees.weaken {p : Prog P α} (h : Guarantees false p v post) :
    Guarantees busy p v post :=
  fun w hw => (h w hw).mono (fun _ _ h => h) fun _ hs => hs.of_idle hs.idle busy

theorem allSettled_spares {ps : List (Prog P Unit)} (h : ∀ p ∈ ps, Spares id p) :
    Spares id (Program.allSettled ps) := by
  induction ps with
  | nil => exact .pure _
  | cons p ps ih =>
    exact Program.Frames.par (h p List.mem_cons_self) (ih fun q hq => h q (List.mem_cons_of_mem _ hq))

/-- All deferrals are under way at once, but only one is about the entry. -/
theorem deferRemaining_guarantees (hv : v.Safe false) (pid : Nat)
    {entries : List (QueuedDelivery P)} (hnodup : (entries.map (·.id)).Nodup) :
    Guarantees busy (deferRemainingEntriesForBudget pid entries) v fun _ v' => v'.Safe false := by
  refine .weaken ?_
  induction entries with
  | nil => exact .pure hv
  | cons entry entries ih =>
    simp only [List.map_cons, List.nodup_cons] at hnodup
    have hframe (w w' : World P) (hI : (view id w).Safe false) (hq : Quiet id w w') :
        view id w' = view id w := hq hI.idle
    have hview (w w' : World P) (hI : (view id w).Safe false) (hw : view id w' = view id w) :
        (view id w').Safe false := hw ▸ hI
    intro w hw
    by_cases hne : entry.id = id
    · subst hne
      refine Program.Keeps.par_left hframe (fun _ h => h) hview ?_
        (allSettled_spares fun p hp => ?_)
      · have hdefer : Guarantees false (deferEntry pid entry) v fun _ v' => v'.Safe false :=
          .bind ((failDelivery_guarantees hv pid _).mono fun _ _ h => .pure h)
        exact hdefer w hw
      · obtain ⟨e, he, rfl⟩ := List.mem_map.mp hp
        exact deferEntry_spares (fun heq => hnodup.1 (List.mem_map.mpr ⟨e, he, heq⟩)) pid
    · exact Program.Keeps.par_right hframe (fun _ h => h) hview (deferEntry_spares hne pid)
        (ih hnodup.2 w hw)

/-- What is done about one entry leaves the others as they were loaded. -/
theorem Guarantees.of_one {entry : QueuedDelivery P} {rest : List (QueuedDelivery P)}
    {p : Prog P α} (hv : v.Safe false) (hnotin : entry.id ∉ rest.map (·.id)) (hrest : Loaded rest v)
    (hother : entry.id ≠ id → Spares id p)
    (hthis : entry.id = id → Guarantees true p v fun _ v' => v'.Safe false) :
    Guarantees true p v fun _ v' => v'.Safe false ∧ Loaded rest v' := by
  by_cases hid : entry.id = id
  · exact (hthis hid).mono fun _ v' hv' =>
      ⟨hv', fun e he heq => absurd (List.mem_map.mpr ⟨e, he, heq.trans hid.symm⟩) hnotin⟩
  · exact (Guarantees.of_spares (hother hid) hv).mono fun _ v' hv' => hv' ▸ ⟨hv, hrest⟩

theorem recoverEntries_guarantees (hv : v.Safe false) (pid : Nat) (deadline : Int)
    {pending : List (QueuedDelivery P)} (hnodup : (pending.map (·.id)).Nodup)
    (hloaded : Loaded pending v) (summary : RecoverySummary) :
    Guarantees true (recoverEntries pid deadline pending summary) v fun _ v' => v'.Safe false := by
  induction pending generalizing v summary with
  | nil => exact .pure hv
  | cons entry rest ih =>
    obtain ⟨hnotin, hnodup'⟩ := List.nodup_cons.mp hnodup
    have hrest : Loaded rest v := fun e he => hloaded e (List.mem_cons_of_mem _ he)
    refine .bind ((now_guarantees (hv.of_idle hv.idle true)).mono fun now v₁ hv₁ => ?_)
    subst hv₁
    split
    · exact .bind ((deferRemaining_guarantees hv pid hnodup).mono fun _ _ h => .pure h)
    split
    · refine .bind ((Guarantees.of_one hv hnotin hrest (fun hne => ?_) fun hid => ?_).mono
        fun _ v' hv' => ih hv'.1 hnodup' hv'.2 _)
      · exact .bind (moveToFailed_spares hne) fun _ => .pure _
      · subst hid
        exact .bind ((moveToFailed_guarantees (hv.of_idle hv.idle true)).mono fun _ _ h => .pure h)
    · rename_i hretry
      split
      · exact ih hv hnodup' hrest _
      · refine .bind ((Guarantees.of_one hv hnotin hrest (recoverEntry_spares · pid)
          fun hid => ?_).mono fun recovered v' hv' => ?_)
        · subst hid
          exact recoverEntry_guarantees hv (hloaded entry List.mem_cons_self rfl)
            (Nat.lt_of_not_le hretry) pid
        · cases recovered <;> exact ih hv'.1 hnodup' hv'.2 _

theorem recoverPendingDeliveries_guarantees (hv : v.Safe false) (pid : Nat)
    (maxRecoveryMs : Option Int) :
    Guarantees true (recoverPendingDeliveries pid maxRecoveryMs) v fun _ v' => v'.Safe false := by
  refine .bind ((loadPendingDeliveries_guarantees hv pid).mono fun r v₁ hv₁ => ?_)
  obtain ⟨hsafe, hpending⟩ := hv₁
  cases r with
  | error _ => exact .pure hsafe
  | ok pending =>
    obtain ⟨hnodup, hloaded⟩ := hpending pending rfl
    have hperm : (sortPending pending).Perm pending := List.perm_insertionSort _ _
    dsimp only
    split
    · exact .pure hsafe
    · refine .bind ((now_guarantees (hsafe.of_idle hsafe.idle true)).mono fun now v₂ hv₂ => ?_)
      subst hv₂
      exact .bind ((recoverEntries_guarantees hsafe pid _
        ((hperm.map _).nodup_iff.mpr hnodup) (fun e he => hloaded e (hperm.subset he)) _).mono
          fun _ _ h => .pure h)

-- ---
-- Runs
-- ---

/-- What the log says of an id that it does not mention. -/
theorem history_unmentioned (h : ∀ e ∈ log, e.id? ≠ some id) :
    (history id log).stored = false ∧ (history id log).attempts = 0 := by
  simp only [history, decide_eq_false_iff_not, attempts, List.count_eq_zero]
  exact ⟨fun hmem => h _ hmem rfl, fun hmem => h _ hmem rfl⟩

theorem program_guarantees (w : World P) (hw : (view id w).Safe false)
    (h : program w cmd = some p) : Guarantees true p (view id w) fun _ v' => v'.Safe false := by
  have hbusy := hw.of_idle hw.idle true
  have hdiscard {α : Type} {p : Prog P α}
      (hp : Guarantees true p (view id w) fun _ v' => v'.Safe false) :
      Guarantees true (program.discard p) (view id w) fun _ v' => v'.Safe false :=
    .bind (hp.mono fun _ _ h => .pure h)
  have hone {α : Type} (i : String) {p : Prog P α} (hother : i ≠ id → Spares id p)
      (hthis : i = id → Guarantees true p (view id w) fun _ v' => v'.Safe false) :
      Guarantees true (program.discard p) (view id w) fun _ v' => v'.Safe false := by
    by_cases hid : i = id
    · exact hdiscard (hthis hid)
    · exact hdiscard ((Guarantees.of_spares (hother hid) hw).mono fun _ _ h => h ▸ hw)
  cases cmd with
  | enqueueDelivery i payload =>
    simp only [program, Option.ite_none_left_eq_some, Option.some.injEq] at h
    obtain ⟨hnew, rfl⟩ := h
    refine hone i (enqueueDelivery_spares · _ payload) fun hid => ?_
    subst hid
    simp only [World.mentions, Bool.or_eq_true, List.any_eq_true, decide_eq_true_eq, not_or,
      not_exists, not_and] at hnew
    obtain ⟨hstored, hattempts⟩ := history_unmentioned hnew.2
    exact enqueueDelivery_guarantees hw _ payload hstored hattempts
  | ackDelivery i =>
    cases h
    refine hone i ackDelivery_spares fun hid => ?_
    subst hid
    exact ackDelivery_guarantees hbusy
  | failDelivery i error =>
    cases h
    refine hone i (failDelivery_spares · _ error) fun hid => ?_
    subst hid
    exact failDelivery_guarantees hbusy _ error
  | moveToFailed i =>
    cases h
    refine hone i moveToFailed_spares fun hid => ?_
    subst hid
    exact moveToFailed_guarantees hbusy
  | recoverPendingDeliveries maxRecoveryMs =>
    cases h
    exact hdiscard (recoverPendingDeliveries_guarantees hw _ maxRecoveryMs)

theorem history_allStored (id : String) {log : List Event} (h : ∀ e ∈ log, ∃ i, e = .stored i) :
    history id log = ⟨.stored id ∈ log, false, 0, 0, false, false⟩ := by
  induction log with
  | nil => simp [history, attempts, attempting, interruptions, replayed]
  | cons e log ih =>
    have hlog := ih fun e he => h e (List.mem_cons_of_mem _ he)
    obtain ⟨i, rfl⟩ := h e List.mem_cons_self
    by_cases hid : i = id
    · subst hid
      simp [hlog]
    · rw [history_other hid rfl, hlog]
      simp [Ne.symm hid]

theorem World.Initial.safe {w : World P} (h : w.Initial) (id : String) : (view id w).Safe false := by
  have hlog := history_allStored id h.log
  have hplaces : (w.files.lookup (.json id)).isSome = decide (.stored id ∈ w.log) := by
    rw [Bool.eq_iff_iff, AList.lookup_isSome, decide_eq_true_eq, h.stored]
  constructor <;> simp [view, hlog, hplaces, h.failed]

/-- Every reachable state of the queue is safe for every entry. -/
theorem reachable_safe (h : (machine P).system.Reachable s) (id : String) :
    (view id s.world).Safe true := by
  have hidle (w : World P) (hw : (view id w).Safe false) := hw.of_idle hw.idle true
  refine Machine.reachable_keeps (machine P) (view id) (fun w hw => hw.safe id) hidle
    (fun w pid hw => ?_) (fun w cmd p hw hp => ?_) h
  · have hcrash : view id ((machine P).crash w pid) = (view id w).interrupt :=
      congrArg (fun h => { view id w with history := h }) (history_crashed id w.log)
    exact hcrash ▸ hw.interrupt
  · exact program_guarantees w hw hp w rfl

/-- How many of the three places an entry is in: the queue, the failed
directory, or acknowledged. -/
def World.places (w : World P) (id : String) : Nat :=
  (decide (.json id ∈ w.files)).toNat + (decide (.failed id ∈ w.files)).toNat +
    (decide (.acknowledged id ∈ w.log)).toNat

theorem places_eq_one {w : World P} (h : (view id w).Safe busy) (hstored : .stored id ∈ w.log) :
    w.places id = 1 := by
  have hplaces := h.places
  have hentry : (view id w).entry.isSome = decide (.json id ∈ w.files) := by
    simp [view, ← AList.lookup_isSome]
  simpa [World.places, ← hentry, view, history, hstored] using hplaces

/-- At every point of every run, crashes included, an entry that was stored is
in exactly one place, was not attempted after it was acknowledged, and was
attempted at most `MAX_RETRIES` times besides the attempts that were cut off. -/
theorem delivery_crashSafe (h : (machine P).system.Reachable s) (id : String) :
    (.stored id ∈ s.world.log → s.world.places id = 1) ∧
      (∀ newer older, s.world.log = newer ++ .attempted id :: older → .acknowledged id ∉ older) ∧
      attempts s.world.log id ≤ MAX_RETRIES + interruptions s.world.log id :=
  have hsafe := reachable_safe h id
  ⟨places_eq_one hsafe, replayed_eq_false.mp hsafe.replayed, hsafe.bound⟩

/-- Six recovery passes in a row deliver the entry and crash before they
acknowledge it: its retry count stays zero, so that each pass tries again. -/
def crashingRun : List (Label Choice (Command Unit) Nat) :=
  [.start (.enqueueDelivery "a" ()), .answer .ok, .answer .ok, .answer (.time 0), .answer .ok,
    .answer .ok] ++
  (List.replicate 6 [.start (.recoverPendingDeliveries none), .answer (.listing [.json "a"]),
    .answer .ok, .answer .ok, .answer (.time 0), .answer (.time 0), .answer .ok, .crash 0]).flatten

theorem crashingRun_attempts :
    ((machine Unit).system.run ⟨⟨∅, 0, []⟩, none⟩ crashingRun).map
      (fun s => (attempts s.world.log "a", decide (.stored "a" ∈ s.world.log))) = some (6, true) := by
  decide

theorem crashingRun_reachable :
    ∃ s, (machine Unit).system.Reachable s ∧ attempts s.world.log "a" = 6 ∧
      .stored "a" ∈ s.world.log := by
  obtain ⟨s, hrun, hlog⟩ := Option.map_eq_some_iff.mp crashingRun_attempts
  have hinit : (machine Unit).system.init ⟨⟨∅, 0, []⟩, none⟩ :=
    ⟨⟨by simp, by simp, by simp⟩, rfl⟩
  simp only [Prod.mk.injEq, decide_eq_true_eq] at hlog
  exact ⟨s, .run (.init hinit) hrun, hlog⟩

/-- After the six attempts the entry is still in one place, and the crashes
account for the attempts. -/
theorem crashingRun_crashSafe :
    ∃ s : Process (Answer Unit) (World Unit), attempts s.world.log "a" = 6 ∧
      s.world.places "a" = 1 ∧ 6 ≤ MAX_RETRIES + interruptions s.world.log "a" := by
  obtain ⟨s, hreach, hattempts, hstored⟩ := crashingRun_reachable
  obtain ⟨hplaces, -, hbound⟩ := delivery_crashSafe hreach "a"
  exact ⟨s, hattempts, hplaces hstored, hattempts ▸ hbound⟩

theorem not_delivery_crashSafe :
    ¬ ∀ s, (machine Unit).system.Reachable s → ∀ id,
      (.stored id ∈ s.world.log → s.world.places id = 1) ∧
        (∀ newer older, s.world.log = newer ++ .attempted id :: older → .acknowledged id ∉ older) ∧
        attempts s.world.log id ≤ MAX_RETRIES := by
  intro hclaim
  obtain ⟨s, hreach, hattempts, -⟩ := crashingRun_reachable
  have hbound := (hclaim s hreach "a").2.2
  simp [hattempts, MAX_RETRIES] at hbound

end OpenClaw.DeliveryQueue
