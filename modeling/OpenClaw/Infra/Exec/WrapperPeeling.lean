import OpenClaw.Infra.Exec.CommandResolution

/-!
# Peeling wrappers

An argv that is not blocked is what stands behind some wrappers, and is that of none itself.
-/

namespace OpenClaw.Exec

open Js

-- ---
-- What stands behind a wrapper
-- ---

section Suffix

variable {host : Host}

theorem scanFrom_suffix {separators : List Text}
    {onToken : σ → Text → Text → WrapperScanDirective × σ} {state : σ} {expects : Bool}
    (h : scanFrom host separators onToken state expects args = some rest) : rest <:+ args := by
  induction args generalizing state expects with
  | nil =>
    unfold scanFrom at h
    split at h
    · cases h
    · cases h
      exact List.suffix_rfl
  | cons raw args ih =>
    have hlater {state : σ} {expects : Bool}
        (h : scanFrom host separators onToken state expects args = some rest) :
        rest <:+ raw :: args :=
      (ih h).trans (List.suffix_cons raw args)
    unfold scanFrom at h
    dsimp only at h
    split at h
    · exact hlater h
    · split at h
      · exact hlater h
      · split at h
        · cases h
          exact List.suffix_cons raw _
        · split at h
          · cases h
            exact List.suffix_rfl
          · cases h
          · exact hlater h
          · exact hlater h

theorem scanWrapperInvocation_suffix {separators : List Text}
    {onToken : σ → Text → Text → WrapperScanDirective × σ} {state : σ}
    {adjust : List Text → Option (List Text)}
    (hadjust : ∀ command adjusted, adjust command = some adjusted → adjusted <:+ command)
    (h : scanWrapperInvocation host argv separators state onToken adjust = some rest) :
    rest <:+ argv := by
  obtain ⟨hrest, -⟩ := Option.filter_eq_some_iff.mp h
  obtain ⟨command, hscan, hadjusted⟩ := Option.bind_eq_some_iff.mp hrest
  exact ((hadjust command rest hadjusted).trans (scanFrom_suffix hscan)).trans
    (List.drop_suffix 1 argv)

theorem some_suffix (command adjusted : List Text) (h : some command = some adjusted) :
    adjusted <:+ command := by
  cases h
  exact List.suffix_rfl

theorem afterTranscript_suffix {saw : Bool} (h : afterTranscript saw command = some rest) :
    rest <:+ command := by
  induction command generalizing saw with
  | nil => cases h
  | cons raw command ih =>
    unfold afterTranscript at h
    split at h
    · exact (ih h).trans (List.suffix_cons raw command)
    · split at h
      · cases h
        exact List.suffix_rfl
      · exact (ih h).trans (List.suffix_cons raw command)

theorem afterDuration_suffix (command adjusted : List Text)
    (h : (if 1 < command.length then some (command.drop 1) else none) = some adjusted) :
    adjusted <:+ command := by
  split at h
  · cases h
    exact List.drop_suffix 1 command
  · cases h

/-- A wrapper runs what stands at the end of its argv. -/
theorem unwrap_suffix {spec : DispatchWrapperSpec} (hspec : spec ∈ DISPATCH_WRAPPER_SPECS host)
    (hunwrap : spec.unwrap = some unwrap) (h : unwrap argv = some rest) : rest <:+ argv := by
  have hsupported {c : Prop} [Decidable c] {unwrapped : Option (List Text)}
      (hsuffix : unwrapped = some rest → rest <:+ argv)
      (h : (if c then unwrapped else none) = some rest) : rest <:+ argv := by
    split at h
    · exact hsuffix h
    · cases h
  simp only [DISPATCH_WRAPPER_SPECS, List.mem_cons, List.not_mem_nil, or_false] at hspec
  rcases hspec with rfl | rfl | rfl | rfl | rfl | rfl | rfl | rfl | rfl | rfl | rfl | rfl | rfl |
    rfl | rfl | rfl | rfl
  all_goals
    first
    | cases hunwrap; done
    | obtain rfl := Option.some.inj hunwrap
      first
      | exact scanWrapperInvocation_suffix some_suffix h
      | exact hsupported (scanWrapperInvocation_suffix some_suffix) h
      | exact scanWrapperInvocation_suffix afterDuration_suffix h
      | exact hsupported (scanWrapperInvocation_suffix fun _ _ => afterTranscript_suffix) h

theorem unwrapKnownDispatchWrapperInvocation_suffix
    (h : unwrapKnownDispatchWrapperInvocation host argv = .unwrapped wrapper rest) :
    rest <:+ argv := by
  unfold unwrapKnownDispatchWrapperInvocation at h
  split at h
  · cases h
  · dsimp only at h
    split at h
    · cases h
    case h_2 spec hspec =>
      split at h
      case h_1 unwrap hunwrap =>
        unfold unwrapDispatchWrapper at h
        split at h
        case h_1 behind hbehind =>
          cases h
          exact unwrap_suffix (List.mem_of_find?_eq_some hspec) hunwrap hbehind
        case h_2 => cases h
      · cases h

theorem unwrapKnownShellMultiplexerInvocation_suffix
    (h : unwrapKnownShellMultiplexerInvocation host argv = .unwrapped wrapper rest) :
    rest <:+ argv := by
  unfold unwrapKnownShellMultiplexerInvocation at h
  split at h
  · cases h
  · dsimp only at h
    split at h
    · cases h
    · split at h
      · cases h
      · split at h
        · cases h
          split <;> exact List.drop_suffix _ _
        · cases h

end Suffix

-- ---
-- Peeling
-- ---

/-- Behind the wrappers, from the outermost on, stands the rest of an argv. -/
inductive Peels (host : Host) : List Text → List Text → List Text → Prop
  | bare : Peels host argv [] argv
  | dispatch (hunwrap : unwrapKnownDispatchWrapperInvocation host argv = .unwrapped wrapper next)
      (h : Peels host next wrappers rest) : Peels host argv (wrapper :: wrappers) rest
  | multiplexer
      (hunwrap : unwrapKnownShellMultiplexerInvocation host argv = .unwrapped wrapper next)
      (h : Peels host next wrappers rest) : Peels host argv (wrapper :: wrappers) rest

variable {host : Host}

theorem Peels.trans (h : Peels host argv wrappers middle) (h' : Peels host middle more rest) :
    Peels host argv (wrappers ++ more) rest := by
  induction h with
  | bare => exact h'
  | dispatch hunwrap _ ih => exact .dispatch hunwrap (ih h')
  | multiplexer hunwrap _ ih => exact .multiplexer hunwrap (ih h')

theorem Peels.suffix (h : Peels host argv wrappers rest) : rest <:+ argv := by
  induction h with
  | bare => exact List.suffix_rfl
  | dispatch hunwrap _ ih =>
    exact ih.trans (unwrapKnownDispatchWrapperInvocation_suffix hunwrap)
  | multiplexer hunwrap _ ih =>
    exact ih.trans (unwrapKnownShellMultiplexerInvocation_suffix hunwrap)

/-- A plan that is not blocked has peeled at most `depth` wrappers more. -/
theorem unwrapDispatchFrom_peels
    (h : (unwrapDispatchFrom host depth current wrappers).policyBlocked = false) :
    ∃ peeled, (unwrapDispatchFrom host depth current wrappers).wrappers = wrappers ++ peeled ∧
      Peels host current peeled (unwrapDispatchFrom host depth current wrappers).argv ∧
      peeled.length ≤ depth := by
  induction depth generalizing current wrappers with
  | zero => exact ⟨[], (List.append_nil _).symm, .bare, Nat.zero_le _⟩
  | succ depth ih =>
    cases hunwrap : unwrapKnownDispatchWrapperInvocation host current with
    | notWrapper =>
      simp only [unwrapDispatchFrom, hunwrap]
      exact ⟨[], (List.append_nil _).symm, .bare, Nat.zero_le _⟩
    | blocked wrapper =>
      simp only [unwrapDispatchFrom, hunwrap] at h
      cases h
    | unwrapped wrapper argv =>
      simp only [unwrapDispatchFrom, hunwrap, if_neg (unwrapped_ne_nil hunwrap)] at h ⊢
      split at h
      · cases h
      case isFalse hplain =>
        rw [if_neg hplain]
        obtain ⟨peeled, hwrappers, hpeels, hlength⟩ := ih h
        refine ⟨wrapper :: peeled, ?_, .dispatch hunwrap hpeels, Nat.succ_le_succ hlength⟩
        rw [hwrappers, List.append_assoc, List.singleton_append]

theorem resolveDispatchWrapperTrustPlan_peels
    (h : (resolveDispatchWrapperTrustPlan host argv maxDepth).policyBlocked = false) :
    Peels host argv (resolveDispatchWrapperTrustPlan host argv maxDepth).wrappers
        (resolveDispatchWrapperTrustPlan host argv maxDepth).argv ∧
      (resolveDispatchWrapperTrustPlan host argv maxDepth).wrappers.length ≤ maxDepth := by
  have hplan : resolveDispatchWrapperTrustPlan host argv maxDepth =
      unwrapDispatchFrom host maxDepth argv [] := by
    unfold resolveDispatchWrapperTrustPlan at h ⊢
    dsimp only at h ⊢
    split at h
    case isTrue hfull =>
      rw [if_pos hfull]
      split at h
      · cases h
      · cases h
      case h_3 => rfl
    case isFalse hfull => rw [if_neg hfull]
  rw [hplan] at h ⊢
  obtain ⟨peeled, hwrappers, hpeels, hlength⟩ := unwrapDispatchFrom_peels h
  rw [hwrappers, List.nil_append]
  exact ⟨hpeels, hlength⟩

-- ---
-- Plans
-- ---

/-- A plan that has peeled off all wrappers, which are few. -/
structure IsPeeled (host : Host) (maxDepth : Nat) (argv : List Text) (plan : ExecWrapperTrustPlan) :
    Prop where
  peels : Peels host argv plan.wrapperChain plan.argv
  few : plan.wrapperChain.length ≤ maxDepth
  dispatch : unwrapKnownDispatchWrapperInvocation host plan.argv = .notWrapper
  multiplexer : unwrapKnownShellMultiplexerInvocation host plan.argv = .notWrapper

theorem endUnwrap_isPeeled (h : (endUnwrap host maxDepth state).policyBlocked = false)
    (hpeels : Peels host argv state.wrapperChain state.current)
    (hfew : state.wrapperChain.length ≤ maxDepth)
    (hends : maxDepth ≤ state.wrapperChain.length ∨
      unwrapKnownDispatchWrapperInvocation host state.current = .notWrapper ∧
        unwrapKnownShellMultiplexerInvocation host state.current = .notWrapper) :
    IsPeeled host maxDepth argv (endUnwrap host maxDepth state) := by
  unfold endUnwrap at h ⊢
  dsimp only at h ⊢
  split at h
  case isTrue hfull =>
    rw [if_pos hfull]
    split at h
    · cases h
    · cases h
    case h_3 hdispatch =>
      split at h
      · cases h
      · cases h
      case h_3 hmultiplexer => exact ⟨hpeels, hfew, hdispatch, hmultiplexer⟩
  case isFalse hleft =>
    rw [if_neg hleft]
    obtain ⟨hdispatch, hmultiplexer⟩ := hends.resolve_left hleft
    exact ⟨hpeels, hfew, hdispatch, hmultiplexer⟩

/-- The rounds go on while wrappers are left and the limit is not reached. -/
theorem unwrapRounds_isPeeled {state : UnwrapState}
    (h : (unwrapRounds host maxDepth rounds state).policyBlocked = false)
    (hpeels : Peels host argv state.wrapperChain state.current)
    (hlimit : state.wrapperChain.length < maxDepth)
    (hrounds : maxDepth ≤ rounds + state.wrapperChain.length) :
    IsPeeled host maxDepth argv (unwrapRounds host maxDepth rounds state) := by
  induction rounds generalizing state with
  | zero => exact endUnwrap_isPeeled h hpeels hlimit.le (.inl (by simpa using hrounds))
  | succ rounds ih =>
    unfold unwrapRounds at h ⊢
    dsimp only at h ⊢
    split at h
    · cases h
    case isFalse hdispatch =>
      rw [if_neg hdispatch]
      have hplain := Bool.eq_false_iff.mpr hdispatch
      have hnot := resolveDispatchWrapperTrustPlan_notWrapper hplain
      obtain ⟨hbehind, hlength⟩ := resolveDispatchWrapperTrustPlan_peels hplain
      split at h
      case isTrue hwrappers =>
        rw [if_pos hwrappers]
        have hpos := List.length_pos_iff.mpr hwrappers
        have hnext := hpeels.trans hbehind
        have hnextFew : (state.wrapperChain ++ (resolveDispatchWrapperTrustPlan host state.current
            (maxDepth - state.wrapperChain.length)).wrappers).length ≤ maxDepth := by
          rw [List.length_append]
          omega
        split at h
        case isTrue hfull =>
          rw [if_pos hfull]
          exact endUnwrap_isPeeled h hnext hnextFew (.inl hfull)
        case isFalse hleft =>
          rw [if_neg hleft]
          refine ih h hnext (not_le.mp hleft) ?_
          rw [List.length_append]
          omega
      case isFalse hwrappers =>
        rw [if_neg hwrappers]
        rw [resolveDispatchWrapperTrustPlan_argv (not_not.mp hwrappers)] at hnot
        split at h
        · cases h
        case h_2 wrapper argv hunwrap =>
          have hnext := hpeels.trans (.multiplexer hunwrap .bare)
          split at h
          case isTrue hfull =>
            rw [if_pos hfull]
            refine endUnwrap_isPeeled h hnext ?_ (.inl hfull)
            rw [List.length_append, List.length_singleton]
            exact hlimit
          case isFalse hleft =>
            rw [if_neg hleft]
            refine ih h hnext ?_ ?_
            · exact not_le.mp hleft
            · rw [List.length_append, List.length_singleton]
              omega
        case h_3 hmultiplexer =>
          exact endUnwrap_isPeeled h hpeels hlimit.le (.inr ⟨hnot, hmultiplexer⟩)

theorem commandName_notMem_of_notWrapper
    (h : unwrapKnownShellMultiplexerInvocation host argv = .notWrapper) :
    commandName host argv ∉ SHELL_MULTIPLEXER_WRAPPER_NAMES := by
  unfold unwrapKnownShellMultiplexerInvocation at h
  split at h
  case h_1 hnone =>
    rw [commandName_eq_nil hnone]
    decide
  case h_2 token0 htoken =>
    obtain ⟨-, rfl⟩ := trimmed?_eq_some.mp htoken
    dsimp only at h
    split at h
    case isTrue hnot => exact hnot
    case isFalse =>
      split at h
      · cases h
      · split at h <;> cases h

/-- Nothing is peeled off an argv that is not a wrapper's. -/
theorem resolveExecWrapperTrustPlan_eq_finalize
    (hdispatch : unwrapKnownDispatchWrapperInvocation host argv = .notWrapper)
    (hmultiplexer : unwrapKnownShellMultiplexerInvocation host argv = .notWrapper) :
    resolveExecWrapperTrustPlan host argv = finalizeExecWrapperTrustPlan host argv argv [] := by
  have hplan (depth : Nat) :
      resolveDispatchWrapperTrustPlan host argv (depth + 1) = ⟨argv, [], false, none⟩ := by
    simp [resolveDispatchWrapperTrustPlan, unwrapDispatchFrom, hdispatch]
  unfold resolveExecWrapperTrustPlan
  simp only [MAX_DISPATCH_WRAPPER_DEPTH, unwrapRounds, List.length_nil, hplan, hmultiplexer]
  simp [endUnwrap]

/-- A plan is blocked, or about the argv behind at most `MAX_DISPATCH_WRAPPER_DEPTH` wrappers;
that argv is no wrapper's, and its plan leaves it as it is. -/
theorem resolveExecWrapperTrustPlan_peels (host : Host) (argv : List Text) :
    let plan := resolveExecWrapperTrustPlan host argv
    let again := resolveExecWrapperTrustPlan host plan.argv
    plan.policyBlocked = true ∨
      Peels host argv plan.wrapperChain plan.argv ∧
      plan.argv <:+ argv ∧
      plan.wrapperChain.length ≤ MAX_DISPATCH_WRAPPER_DEPTH ∧
      commandName host plan.argv ∉ DISPATCH_WRAPPER_NAMES ∧
      commandName host plan.argv ∉ SHELL_MULTIPLEXER_WRAPPER_NAMES ∧
      again.policyBlocked = false ∧ again.wrapperChain = [] ∧ again.argv = plan.argv := by
  intro plan again
  rcases Bool.eq_false_or_eq_true plan.policyBlocked with hblocked | hplain
  · exact .inl hblocked
  · have hpeeled : IsPeeled host MAX_DISPATCH_WRAPPER_DEPTH argv plan :=
      unwrapRounds_isPeeled hplain .bare (Nat.succ_pos 3) (Nat.le_add_right _ _)
    have hagain : again = finalizeExecWrapperTrustPlan host plan.argv plan.argv [] :=
      resolveExecWrapperTrustPlan_eq_finalize hpeeled.dispatch hpeeled.multiplexer
    refine .inr ⟨hpeeled.peels, hpeeled.peels.suffix, hpeeled.few, ?_, ?_, ?_⟩
    · exact (resolveExecWrapperTrustPlan_isFinal hplain).commandName_notMem
    · exact commandName_notMem_of_notWrapper hpeeled.multiplexer
    · rw [hagain]
      exact ⟨rfl, rfl, rfl⟩

end OpenClaw.Exec
