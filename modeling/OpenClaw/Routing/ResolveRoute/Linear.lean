import OpenClaw.Lib.Buckets
import OpenClaw.Routing.ResolveRoute.Transparent

/-!
# Routes by a plain scan

The index finds the binding that a scan of all bindings of the channel and account, tier by
tier and in the order of the config, would find.
-/

namespace OpenClaw.Routing

open Js Members

-- ---
-- The plain scan
-- ---

section
variable (lower : LowerCase)

/-- The route bindings with their channels, as far as they name one, counted from a number on. -/
def evaluatedFrom : Nat → List AgentBinding → List (Text × EvaluatedBinding)
  | _, [] => []
  | order, binding :: bindings =>
    let channel := lower.normalizeToken (some binding.bindingMatch.channel)
    if channel = [] then evaluatedFrom order bindings
    else
      (channel, ⟨binding.agentId, normalizeBindingMatch lower binding.bindingMatch, order⟩) ::
        evaluatedFrom (order + 1) bindings

def EvaluatedBinding.isAnyAccount (binding : EvaluatedBinding) : Bool :=
  binding.bindingMatch.accountPattern = ['*']

def EvaluatedBinding.isOfAccount (binding : EvaluatedBinding) (accountId : Text) : Bool :=
  !binding.isAnyAccount &&
    resolveAccountPatternKey lower binding.bindingMatch.accountPattern = accountId

/-- The bindings for a channel and account, or any account, in the order of the config. -/
def plainBindings (bindings : List AgentBinding) (channel accountId : Text) :
    List EvaluatedBinding :=
  ((evaluatedFrom lower 0 (listRouteBindings bindings)).filter fun entry =>
    entry.1 = channel && (entry.2.isOfAccount lower accountId || entry.2.isAnyAccount)).map Prod.snd

end

/-- The binding satisfies the tier's predicate and matches its scope. -/
def Tier.holds (tier : Tier) (input : NormalizedInput) (candidate : EvaluatedBinding) : Bool :=
  tier.predicate candidate && matchesBindingScope candidate.bindingMatch
    ⟨tier.scopePeer, input.guildId, input.teamId, input.memberRoleIds⟩

/-- The tiers, whose predicates and scopes no index has a part in. -/
def plainTiers (input : NormalizedInput) : List Tier := tiers ⟨[], [], [], [], [], [], []⟩ input

/-- The first binding of the first tier that one satisfies, else the default agent. -/
def plainMatch (bindings : List EvaluatedBinding) (input : NormalizedInput)
    (defaultAgentId : Text) : Text × MatchedBy :=
  ((plainTiers input).findSome? fun tier =>
    (bindings.find? (tier.holds input)).map fun matched => (matched.agentId, tier.matchedBy)).getD
    (defaultAgentId, .default)

-- ---
-- The bindings of a channel and account
-- ---

variable {lower : LowerCase} {heap : Heap}

/-- The step of `buildEvaluatedBindingsByChannel`. -/
def addBinding (lower : LowerCase) (built : Nat × List (Text × EvaluatedBindingsByChannel))
    (binding : AgentBinding) : Nat × List (Text × EvaluatedBindingsByChannel) :=
  let channel := lower.normalizeToken (some binding.bindingMatch.channel)
  if channel = [] then built
  else
    let evaluated : EvaluatedBinding :=
      ⟨binding.agentId, normalizeBindingMatch lower binding.bindingMatch, built.1⟩
    let bucket := (built.2.lookup channel).getD ⟨[], []⟩
    let bucket :=
      if evaluated.bindingMatch.accountPattern = ['*'] then
        { bucket with byAnyAccount := bucket.byAnyAccount ++ [evaluated] }
      else
        let accountKey := resolveAccountPatternKey lower evaluated.bindingMatch.accountPattern
        { bucket with byAccount := pushToMap bucket.byAccount accountKey evaluated }
    (built.1 + 1, assign built.2 channel bucket)

theorem buildEvaluatedBindingsByChannel_eq (bindings : List AgentBinding) :
    buildEvaluatedBindingsByChannel lower bindings =
      ((listRouteBindings bindings).foldl (addBinding lower) (0, [])).2 := rfl

def bucketOf (byChannel : List (Text × EvaluatedBindingsByChannel)) (channel : Text) :
    EvaluatedBindingsByChannel :=
  (byChannel.lookup channel).getD ⟨[], []⟩

/-- The buckets hold the bindings that were evaluated, in their order. -/
structure BucketsHold (lower : LowerCase) (byChannel : List (Text × EvaluatedBindingsByChannel))
    (evaluated : List (Text × EvaluatedBinding)) : Prop where
  anyAccount (channel : Text) : (bucketOf byChannel channel).byAnyAccount =
    (evaluated.filter fun entry => entry.1 = channel && entry.2.isAnyAccount).map Prod.snd
  ofAccount (channel accountId : Text) :
    Buckets.get (bucketOf byChannel channel).byAccount accountId =
      (evaluated.filter fun entry =>
        entry.1 = channel && entry.2.isOfAccount lower accountId).map Prod.snd

theorem bucketOf_assign (byChannel : List (Text × EvaluatedBindingsByChannel))
    (channel channel' : Text) (bucket : EvaluatedBindingsByChannel) :
    bucketOf (assign byChannel channel bucket) channel' =
      if channel' = channel then bucket else bucketOf byChannel channel' := by
  rw [bucketOf, lookup_assign]
  split <;> rfl

theorem BucketsHold.add (h : BucketsHold lower byChannel evaluated) (channel : Text)
    (binding : EvaluatedBinding) :
    BucketsHold lower
      (assign byChannel channel
        (if binding.bindingMatch.accountPattern = ['*'] then
          { bucketOf byChannel channel with
            byAnyAccount := (bucketOf byChannel channel).byAnyAccount ++ [binding] }
        else
          { bucketOf byChannel channel with
            byAccount := pushToMap (bucketOf byChannel channel).byAccount
              (resolveAccountPatternKey lower binding.bindingMatch.accountPattern) binding }))
      (evaluated ++ [(channel, binding)]) where
  anyAccount channel' := by
    rw [bucketOf_assign, Buckets.filter_snoc, List.map_append, ← h.anyAccount]
    by_cases hany : binding.bindingMatch.accountPattern = ['*']
    · by_cases heq : channel' = channel
      · simp [hany, heq, EvaluatedBinding.isAnyAccount]
      · simp [heq, Ne.symm heq]
    · by_cases heq : channel' = channel
      · simp [hany, heq, EvaluatedBinding.isAnyAccount]
      · simp [heq, Ne.symm heq]
  ofAccount channel' accountId := by
    rw [bucketOf_assign, Buckets.filter_snoc, List.map_append, ← h.ofAccount]
    by_cases heq : channel' = channel
    · subst heq
      by_cases hany : binding.bindingMatch.accountPattern = ['*']
      · simp [hany, EvaluatedBinding.isOfAccount, EvaluatedBinding.isAnyAccount]
      · have hpush := Buckets.get_push (bucketOf byChannel channel').byAccount
          (resolveAccountPatternKey lower binding.bindingMatch.accountPattern) accountId binding
        rw [if_pos rfl, if_neg hany]
        change Buckets.get (Buckets.push _ _ binding) accountId = _
        rw [hpush]
        simp [hany, EvaluatedBinding.isOfAccount, EvaluatedBinding.isAnyAccount, eq_comm, apply_ite]
    · simp [heq, Ne.symm heq]

theorem bucketsHold_foldl (built : Nat × List (Text × EvaluatedBindingsByChannel))
    (bindings : List AgentBinding) (h : BucketsHold lower built.2 evaluated) :
    BucketsHold lower (bindings.foldl (addBinding lower) built).2
      (evaluated ++ evaluatedFrom lower built.1 bindings) := by
  induction bindings generalizing built evaluated with
  | nil => simpa [evaluatedFrom] using h
  | cons binding bindings ih =>
    rw [List.foldl_cons, evaluatedFrom]
    by_cases hchannel : lower.normalizeToken (some binding.bindingMatch.channel) = []
    · rw [if_pos hchannel, addBinding, if_pos hchannel]
      exact ih built h
    · rw [if_neg hchannel, addBinding, if_neg hchannel, List.append_cons]
      exact ih _ (h.add _ _)

/-- The bindings come in the order of the config. -/
theorem evaluatedFrom_order (order : Nat) (bindings : List AgentBinding) :
    (∀ entry ∈ evaluatedFrom lower order bindings, order ≤ entry.2.order) ∧
      (evaluatedFrom lower order bindings).Pairwise (·.2.order < ·.2.order) := by
  induction bindings generalizing order with
  | nil => simp [evaluatedFrom]
  | cons binding bindings ih =>
    rw [evaluatedFrom]
    split
    · exact ih order
    · obtain ⟨hle, hsorted⟩ := ih (order + 1)
      refine ⟨List.forall_mem_cons.mpr ⟨le_rfl, fun entry hmem => ?_⟩,
        List.pairwise_cons.mpr ⟨fun entry hmem => hle entry hmem, hsorted⟩⟩
      exact Nat.le_of_succ_le (hle entry hmem)

theorem mergeEvaluatedBindingsInSourceOrder_eq (accountScoped anyAccount : List EvaluatedBinding) :
    mergeEvaluatedBindingsInSourceOrder accountScoped anyAccount =
      accountScoped.merge anyAccount fun a b => a.order ≤ b.order := by
  unfold mergeEvaluatedBindingsInSourceOrder
  split
  · rename_i hnil
    rw [List.length_eq_zero_iff.mp hnil, List.nil_merge]
  · split
    · rename_i hnil
      rw [List.length_eq_zero_iff.mp hnil, List.merge_right]
    · rfl

theorem plainBindings_pairwise (bindings : List AgentBinding) (channel accountId : Text) :
    (plainBindings lower bindings channel accountId).Pairwise (·.order < ·.order) :=
  List.pairwise_map.mpr ((evaluatedFrom_order _ _).2.filter _)

theorem evaluateBindings_eq (byChannel : List (Text × EvaluatedBindingsByChannel))
    (channel accountId : Text) :
    evaluateBindings byChannel channel accountId =
      (Buckets.get (bucketOf byChannel channel).byAccount accountId).merge
        (bucketOf byChannel channel).byAnyAccount fun a b => a.order ≤ b.order := by
  rw [evaluateBindings, mergeEvaluatedBindingsInSourceOrder_eq, bucketOf]
  cases byChannel.lookup channel <;> rfl

/-- The buckets of an account and of any account merge to what a scan of all bindings finds. -/
theorem bindingsFor_eq_plain (cfg : OpenClawConfig) (channel accountId : Text) :
    bindingsFor lower heap cfg channel accountId =
      plainBindings lower (heap.bindings cfg.bindings) channel accountId := by
  have hheld : BucketsHold lower
      (buildEvaluatedBindingsByChannel lower (heap.bindings cfg.bindings))
      (evaluatedFrom lower 0 (listRouteBindings (heap.bindings cfg.bindings))) := by
    have hempty : BucketsHold lower [] [] := ⟨fun _ => rfl, fun _ _ => rfl⟩
    rw [buildEvaluatedBindingsByChannel_eq]
    exact bucketsHold_foldl (0, []) _ hempty
  have hparts : (fun entry : Text × EvaluatedBinding =>
        entry.1 = channel && (entry.2.isOfAccount lower accountId || entry.2.isAnyAccount)) =
      fun entry => (decide (entry.1 = channel) && entry.2.isOfAccount lower accountId) ||
        (decide (entry.1 = channel) && entry.2.isAnyAccount) :=
    funext fun entry => Bool.and_or_distrib_left _ _ _
  have hdisjoint (entry : Text × EvaluatedBinding)
      (h : (decide (entry.1 = channel) && entry.2.isOfAccount lower accountId) = true) :
      (decide (entry.1 = channel) && entry.2.isAnyAccount) = false := by
    simp only [EvaluatedBinding.isOfAccount, Bool.and_eq_true, Bool.not_eq_true'] at h
    simp [h.2.1]
  rw [bindingsFor, evaluateBindings_eq, hheld.ofAccount, hheld.anyAccount, plainBindings, hparts,
    ← Buckets.merge_filter (evaluatedFrom_order _ _).2 hdisjoint]
  symm
  refine List.map_merge fun _ _ _ _ => ?_
  rfl

-- ---
-- The index
-- ---

/-- Where the index keeps a binding. -/
inductive Place where
  | peer (kind : ChatType) (id : Text)
  | peerWildcard
  | guildWithRoles (guildId : Text)
  | guild (guildId : Text)
  | team (teamId : Text)
  | account
  | channel
  deriving DecidableEq

/-- The place of a binding that asks for no peer. -/
def EvaluatedBinding.peerlessPlace (binding : EvaluatedBinding) : Place :=
  match binding.bindingMatch.guildId, binding.bindingMatch.roles, binding.bindingMatch.teamId with
  | some guildId, some _, _ => .guildWithRoles guildId
  | some guildId, none, _ => .guild guildId
  | none, _, some teamId => .team teamId
  | none, _, none => if binding.bindingMatch.accountPattern ≠ ['*'] then .account else .channel

def EvaluatedBinding.place (binding : EvaluatedBinding) : Place :=
  match binding.bindingMatch.peer with
  | .valid kind id => .peer kind id
  | .wildcardKind _ => .peerWildcard
  | _ => binding.peerlessPlace

def Place.peerKeys : Place → List Text
  | .peer kind id => peerLookupKeys kind id
  | _ => []

/-- Each part of the index holds the bindings whose place it is, in their order. -/
structure IndexHolds (index : EvaluatedBindingsIndex) (bindings : List EvaluatedBinding) :
    Prop where
  byPeer (key : Text) :
    Buckets.get index.byPeer key = bindings.filter (key ∈ ·.place.peerKeys)
  byPeerWildcard : index.byPeerWildcard = bindings.filter (·.place = .peerWildcard)
  byGuildWithRoles (hkey : key ≠ []) :
    Buckets.get index.byGuildWithRoles key = bindings.filter (·.place = .guildWithRoles key)
  byGuild (hkey : key ≠ []) : Buckets.get index.byGuild key = bindings.filter (·.place = .guild key)
  byTeam (hkey : key ≠ []) : Buckets.get index.byTeam key = bindings.filter (·.place = .team key)
  byAccount : index.byAccount = bindings.filter (·.place = .account)
  byChannel : index.byChannel = bindings.filter (·.place = .channel)

def putAt (index : EvaluatedBindingsIndex) (binding : EvaluatedBinding) :
    Place → EvaluatedBindingsIndex
  | .peer kind id =>
    { index with byPeer := Buckets.pushAll index.byPeer (peerLookupKeys kind id) binding }
  | .peerWildcard => { index with byPeerWildcard := index.byPeerWildcard ++ [binding] }
  | .guildWithRoles id =>
    { index with byGuildWithRoles := pushToIndexMap index.byGuildWithRoles (some id) binding }
  | .guild id => { index with byGuild := pushToIndexMap index.byGuild (some id) binding }
  | .team id => { index with byTeam := pushToIndexMap index.byTeam (some id) binding }
  | .account => { index with byAccount := index.byAccount ++ [binding] }
  | .channel => { index with byChannel := index.byChannel ++ [binding] }

theorem indexBinding_eq (index : EvaluatedBindingsIndex) (binding : EvaluatedBinding) :
    indexBinding index binding = putAt index binding binding.place := by
  have hpeerless : (if binding.bindingMatch.guildId.isSome ∧ binding.bindingMatch.roles.isSome then
        { index with byGuildWithRoles :=
            pushToIndexMap index.byGuildWithRoles binding.bindingMatch.guildId binding }
      else if binding.bindingMatch.guildId.isSome then
        { index with byGuild := pushToIndexMap index.byGuild binding.bindingMatch.guildId binding }
      else if binding.bindingMatch.teamId.isSome then
        { index with byTeam := pushToIndexMap index.byTeam binding.bindingMatch.teamId binding }
      else if binding.bindingMatch.accountPattern ≠ ['*'] then
        { index with byAccount := index.byAccount ++ [binding] }
      else { index with byChannel := index.byChannel ++ [binding] }) =
      putAt index binding binding.peerlessPlace := by
    unfold EvaluatedBinding.peerlessPlace
    cases binding.bindingMatch.guildId with
    | some guildId => cases binding.bindingMatch.roles <;> rfl
    | none =>
      cases binding.bindingMatch.teamId with
      | some teamId => rfl
      | none =>
        by_cases hany : binding.bindingMatch.accountPattern = ['*']
        · simp [hany, putAt]
        · simp [hany, putAt]
  unfold indexBinding EvaluatedBinding.place
  cases binding.bindingMatch.peer with
  | none => exact hpeerless
  | invalid => exact hpeerless
  | wildcardKind kind => rfl
  | valid kind id => cases kind <;> rfl

theorem nodup_peerLookupKeys (kind : ChatType) (id : Text) : (peerLookupKeys kind id).Nodup := by
  cases kind <;> simp [peerLookupKeys]

theorem get_pushToIndexMap (map : List (Text × List EvaluatedBinding)) (hkey : key ≠ [])
    (id : Text) (binding : EvaluatedBinding) :
    Buckets.get (pushToIndexMap map (some id) binding) key =
      Buckets.get map key ++ if id = key then [binding] else [] := by
  by_cases hid : id = []
  · subst hid
    simp [pushToIndexMap, hkey.symm]
  · have hpush := Buckets.get_push map id key binding
    simp only [eq_comm (a := key)] at hpush
    rw [pushToIndexMap, if_neg hid]
    exact hpush

theorem IndexHolds.add (h : IndexHolds index bindings) (binding : EvaluatedBinding) :
    IndexHolds (putAt index binding binding.place) (bindings ++ [binding]) where
  byPeer key := by
    rw [Buckets.filter_snoc, ← h.byPeer]
    cases hplace : binding.place with
    | peer kind id =>
      rw [putAt, Buckets.get_pushAll (nodup_peerLookupKeys kind id), Place.peerKeys]
      by_cases hkey : key ∈ peerLookupKeys kind id <;> simp [hkey]
    | _ => simp [putAt, Place.peerKeys]
  byPeerWildcard := by
    rw [Buckets.filter_snoc, ← h.byPeerWildcard]
    cases hplace : binding.place <;> simp [putAt]
  byGuildWithRoles hkey := by
    rw [Buckets.filter_snoc, ← h.byGuildWithRoles hkey]
    cases hplace : binding.place <;>
      simp [putAt, get_pushToIndexMap _ hkey]
  byGuild hkey := by
    rw [Buckets.filter_snoc, ← h.byGuild hkey]
    cases hplace : binding.place <;>
      simp [putAt, get_pushToIndexMap _ hkey]
  byTeam hkey := by
    rw [Buckets.filter_snoc, ← h.byTeam hkey]
    cases hplace : binding.place <;>
      simp [putAt, get_pushToIndexMap _ hkey]
  byAccount := by
    rw [Buckets.filter_snoc, ← h.byAccount]
    cases hplace : binding.place <;> simp [putAt]
  byChannel := by
    rw [Buckets.filter_snoc, ← h.byChannel]
    cases hplace : binding.place <;> simp [putAt]

theorem indexHolds_foldl (h : IndexHolds index earlier) (bindings : List EvaluatedBinding) :
    IndexHolds (bindings.foldl indexBinding index) (earlier ++ bindings) := by
  induction bindings generalizing index earlier with
  | nil => simpa using h
  | cons binding bindings ih =>
    rw [List.foldl_cons, List.append_cons, indexBinding_eq]
    exact ih (h.add binding)

theorem indexHolds_build (bindings : List EvaluatedBinding) :
    IndexHolds (buildEvaluatedBindingsIndex bindings) bindings := by
  have hempty : IndexHolds ⟨[], [], [], [], [], [], []⟩ [] :=
    ⟨fun _ => rfl, rfl, fun _ => rfl, fun _ => rfl, fun _ => rfl, rfl, rfl⟩
  exact indexHolds_foldl hempty bindings

-- ---
-- Candidates
-- ---

/-- The binding asks for the peer. -/
def EvaluatedBinding.asksFor (peer : RoutePeer) (binding : EvaluatedBinding) : Bool :=
  match binding.place with
  | .peer kind id => peerKindMatches kind peer.kind && peer.id = id
  | _ => false

/-- Whoever asks for a peer stands under each key that is looked up for it. -/
theorem mem_peerKeys_iff (peer : RoutePeer) (binding : EvaluatedBinding)
    (hkey : key ∈ peerLookupKeys peer.kind peer.id) :
    key ∈ binding.place.peerKeys ↔ binding.asksFor peer := by
  unfold EvaluatedBinding.asksFor
  cases binding.place with
  | peer kind id =>
    rcases peer with ⟨peerKind, peerId⟩
    cases kind <;> cases peerKind <;>
      simp only [peerLookupKeys, Place.peerKeys, List.mem_cons, List.not_mem_nil,
        or_false] at hkey ⊢
    all_goals
      rcases hkey with rfl | rfl <;> simp [peerKindMatches]
  | _ => simp [Place.peerKeys]

theorem collectPeerIndexedBindings_eq (h : IndexHolds index bindings) (hnodup : bindings.Nodup)
    (peer : RoutePeer) :
    collectPeerIndexedBindings index (some peer) = bindings.filter (·.asksFor peer) := by
  have hget (key : Text) (hkey : key ∈ peerLookupKeys peer.kind peer.id) :
      (index.byPeer.lookup key).getD [] = bindings.filter (·.asksFor peer) := by
    refine (h.byPeer key).trans (List.filter_congr fun binding _ => ?_)
    rw [Bool.eq_iff_iff, decide_eq_true_eq]
    exact mem_peerKeys_iff peer binding hkey
  have hgather : collectPeerIndexedBindings index (some peer) =
      Buckets.gather ((peerLookupKeys peer.kind peer.id).flatMap fun _ =>
        bindings.filter (·.asksFor peer)) := by
    rw [collectPeerIndexedBindings, Buckets.gather]
    exact congrArg _ (List.flatMap_congr hget)
  rw [hgather]
  have hfilter := hnodup.filter (·.asksFor peer)
  rcases peer with ⟨kind, id⟩
  cases kind with
  | direct => simpa [peerLookupKeys] using Buckets.gather_append hfilter (List.forall_mem_nil _)
  | group => simpa [peerLookupKeys] using Buckets.gather_append hfilter fun _ h => h
  | channel => simpa [peerLookupKeys] using Buckets.gather_append hfilter fun _ h => h

/-- A tier whose candidates are all that it can hold of finds what a scan finds. -/
theorem Tier.matched_eq_find {tier : Tier} {bindings : List EvaluatedBinding}
    {p : EvaluatedBinding → Bool}
    (hcandidates : tier.enabled → tier.candidates = bindings.filter p)
    (hplace : ∀ binding ∈ bindings, tier.holds input binding → tier.enabled ∧ p binding) :
    tier.matched input = bindings.find? (tier.holds input) := by
  unfold Tier.matched
  split
  case isTrue henabled =>
    rw [hcandidates henabled]
    exact Buckets.find?_filter_eq fun binding hmem hholds => (hplace binding hmem hholds).2
  case isFalse hdisabled =>
    symm
    rw [List.find?_eq_none]
    exact fun binding hmem hholds => hdisabled (hplace binding hmem hholds).1

-- ---
-- Scopes
-- ---

/-- What a binding asks for is in the scope it matches. -/
structure InScope (candidate : NormalizedBindingMatch) (scope : BindingScope) : Prop where
  valid {kind : ChatType} {id : Text} (h : candidate.peer = .valid kind id) :
    ∃ peer ∈ scope.peer, peerKindMatches kind peer.kind && peer.id = id
  wildcardKind {kind : ChatType} (h : candidate.peer = .wildcardKind kind) : scope.peer.isSome
  guildId {id : Text} (h : candidate.guildId = some id) : id = scope.guildId
  teamId {id : Text} (h : candidate.teamId = some id) : id = scope.teamId
  roles (h : candidate.roles.isSome) : 0 < scope.memberRoleIds.length

theorem inScope_of_matches (h : matchesBindingScope candidate scope) : InScope candidate scope := by
  unfold matchesBindingScope at h
  simp only [Bool.and_eq_true] at h
  obtain ⟨⟨⟨hpeer, hguild⟩, hteam⟩, hroles⟩ := h
  refine ⟨fun hvalid => ?_, fun hwildcard => ?_, fun hsome => ?_, fun hsome => ?_, fun hsome => ?_⟩
  · rw [hvalid] at hpeer
    cases hscope : scope.peer with
    | none => simp [hscope] at hpeer
    | some peer => exact ⟨peer, rfl, by simpa [hscope] using hpeer⟩
  · rw [hwildcard] at hpeer
    cases hscope : scope.peer with
    | none => simp [hscope] at hpeer
    | some peer => rfl
  · simpa [hsome] using hguild
  · simpa [hsome] using hteam
  · obtain ⟨roles, hsome⟩ := Option.isSome_iff_exists.mp hsome
    simp only [hsome, Option.all_some, List.any_eq_true] at hroles
    obtain ⟨role, -, hmember⟩ := hroles
    exact List.length_pos_of_mem (by simpa using hmember)

theorem isValid_iff (candidate : NormalizedPeerConstraint) :
    candidate.isValid ↔ ∃ kind id, candidate = .valid kind id := by
  cases candidate <;> simp [NormalizedPeerConstraint.isValid]

theorem isWildcardKind_iff (candidate : NormalizedPeerConstraint) :
    candidate.isWildcardKind ↔ ∃ kind, candidate = .wildcardKind kind := by
  cases candidate <;> simp [NormalizedPeerConstraint.isWildcardKind]

theorem place_peerless {binding : EvaluatedBinding} (hvalid : ¬ binding.bindingMatch.peer.isValid)
    (hwildcard : ¬ binding.bindingMatch.peer.isWildcardKind) :
    binding.place = binding.peerlessPlace := by
  unfold EvaluatedBinding.place
  cases hpeer : binding.bindingMatch.peer with
  | none => rfl
  | invalid => rfl
  | wildcardKind kind => exact absurd ((isWildcardKind_iff _).mpr ⟨kind, hpeer⟩) hwildcard
  | valid kind id => exact absurd ((isValid_iff _).mpr ⟨kind, id, hpeer⟩) hvalid

theorem unmatched {bindings : List EvaluatedBinding} {p : EvaluatedBinding → Bool} {β : Type}
    {f : EvaluatedBinding → β} (h : (bindings.find? p).map f = none) :
    ∀ binding ∈ bindings, ¬ p binding :=
  List.find?_eq_none.mp (Option.map_eq_none_iff.mp h)

/-- The ids that a binding asks for are not empty. -/
structure EvaluatedBinding.Normal (binding : EvaluatedBinding) : Prop where
  guildId : binding.bindingMatch.guildId ≠ some []
  teamId : binding.bindingMatch.teamId ≠ some []

theorem candidatesById_eq (map : List (Text × List EvaluatedBinding)) (hkey : key ≠ []) :
    candidatesById map key = Buckets.get map key := if_neg hkey

-- ---
-- Tier by tier
-- ---

/-- A tier of bindings for a peer. -/
theorem peerTier_eq_find (h : IndexHolds index bindings) (hnodup : bindings.Nodup) {tier : Tier}
    (henabled : tier.enabled = tier.scopePeer.isSome)
    (hpredicate : tier.predicate = fun candidate => candidate.bindingMatch.peer.isValid)
    (hcandidates : ∀ peer ∈ tier.scopePeer,
      tier.candidates = collectPeerIndexedBindings index (some peer)) :
    tier.matched input = bindings.find? (tier.holds input) := by
  refine Tier.matched_eq_find (p := fun binding => tier.scopePeer.any (binding.asksFor ·))
    (fun hon => ?_) fun binding _ hholds => ?_
  · rw [henabled] at hon
    obtain ⟨peer, hpeer⟩ := Option.isSome_iff_exists.mp hon
    rw [hcandidates peer hpeer, collectPeerIndexedBindings_eq h hnodup, hpeer]
    rfl
  · obtain ⟨hvalid, hmatches⟩ := Bool.and_eq_true_iff.mp hholds
    rw [hpredicate] at hvalid
    obtain ⟨kind, id, hpeer⟩ := (isValid_iff _).mp hvalid
    obtain ⟨peer, hscope, hasks⟩ := (inScope_of_matches hmatches).valid hpeer
    have hscope : tier.scopePeer = some peer := hscope
    rw [henabled, hscope]
    refine ⟨rfl, ?_⟩
    rw [Option.any_some, EvaluatedBinding.asksFor, EvaluatedBinding.place, hpeer]
    exact hasks

theorem matchTiers_eq_plainMatch (h : IndexHolds index bindings) (hnodup : bindings.Nodup)
    (hnormal : ∀ binding ∈ bindings, binding.Normal) (input : NormalizedInput)
    (defaultAgentId : Text) :
    matchTiers index input defaultAgentId = plainMatch bindings input defaultAgentId := by
  unfold matchTiers plainMatch
  refine congrArg (Option.getD · _) ?_
  unfold plainTiers tiers
  -- a binding for the peer, for its parent, or for its kind
  refine Buckets.findSome?_cons_congr (congrArg (Option.map _) ?_) fun hvalid => ?_
  · refine peerTier_eq_find h hnodup rfl rfl fun peer hpeer => ?_
    rw [show input.peer = some peer from hpeer]
  refine Buckets.findSome?_cons_congr (congrArg (Option.map _) ?_) fun _ => ?_
  · refine peerTier_eq_find h hnodup rfl rfl fun peer hpeer => ?_
    obtain ⟨hparent, -⟩ := Option.filter_eq_some_iff.mp hpeer
    rw [hparent]
  refine Buckets.findSome?_cons_congr (congrArg (Option.map _) ?_) fun hwildcard => ?_
  · refine Tier.matched_eq_find (fun _ => h.byPeerWildcard) fun binding _ hholds => ?_
    obtain ⟨hkind, hmatches⟩ := Bool.and_eq_true_iff.mp hholds
    obtain ⟨kind, hpeer⟩ := (isWildcardKind_iff _).mp hkind
    refine ⟨(inScope_of_matches hmatches).wildcardKind hpeer, ?_⟩
    rw [EvaluatedBinding.place, hpeer]
    rfl
  -- from here on no binding that matches asks for a peer
  have hplace (binding : EvaluatedBinding) (hmem : binding ∈ bindings)
      (hmatches : matchesBindingScope binding.bindingMatch
        ⟨input.peer, input.guildId, input.teamId, input.memberRoleIds⟩) :
      binding.place = binding.peerlessPlace := by
    refine place_peerless (fun hpeer => ?_) fun hkind => ?_
    · exact unmatched hvalid binding hmem (Bool.and_eq_true_iff.mpr ⟨hpeer, hmatches⟩)
    · exact unmatched hwildcard binding hmem (Bool.and_eq_true_iff.mpr ⟨hkind, hmatches⟩)
  clear hvalid hwildcard
  refine Buckets.findSome?_cons_congr (congrArg (Option.map _) ?_) fun hguildRoles => ?_
  · refine Tier.matched_eq_find (p := fun binding => binding.place = .guildWithRoles input.guildId)
      (fun hon => ?_) fun binding hmem hholds => ?_
    · have hid : input.guildId ≠ [] := (of_decide_eq_true hon).1
      exact (candidatesById_eq _ hid).trans (h.byGuildWithRoles hid)
    · obtain ⟨hasks, hmatches⟩ := Bool.and_eq_true_iff.mp hholds
      obtain ⟨hguild, hroles⟩ := Bool.and_eq_true_iff.mp hasks
      obtain ⟨id, hguild⟩ := Option.isSome_iff_exists.mp hguild
      obtain ⟨roles, hroles'⟩ := Option.isSome_iff_exists.mp hroles
      have hscope := inScope_of_matches hmatches
      have hid : id = input.guildId := hscope.guildId hguild
      subst hid
      refine ⟨decide_eq_true ⟨fun hnil => ?_, hscope.roles hroles⟩, decide_eq_true ?_⟩
      · exact (hnormal binding hmem).guildId (hnil ▸ hguild)
      · rw [hplace binding hmem hmatches, EvaluatedBinding.peerlessPlace, hguild, hroles']
  refine Buckets.findSome?_cons_congr (congrArg (Option.map _) ?_) fun hguildOnly => ?_
  · refine Tier.matched_eq_find (p := fun binding => binding.place = .guild input.guildId)
      (fun hon => ?_) fun binding hmem hholds => ?_
    · have hid : input.guildId ≠ [] := of_decide_eq_true hon
      exact (candidatesById_eq _ hid).trans (h.byGuild hid)
    · obtain ⟨hasks, hmatches⟩ := Bool.and_eq_true_iff.mp hholds
      obtain ⟨hguild, hroles⟩ := Bool.and_eq_true_iff.mp hasks
      obtain ⟨id, hguild⟩ := Option.isSome_iff_exists.mp hguild
      have hroles : binding.bindingMatch.roles = none := by simpa using hroles
      have hid : id = input.guildId := (inScope_of_matches hmatches).guildId hguild
      subst hid
      refine ⟨decide_eq_true fun hnil => ?_, decide_eq_true ?_⟩
      · exact (hnormal binding hmem).guildId (hnil ▸ hguild)
      · rw [hplace binding hmem hmatches, EvaluatedBinding.peerlessPlace, hguild, hroles]
  -- nor for a guild
  have hguildless (binding : EvaluatedBinding) (hmem : binding ∈ bindings)
      (hmatches : matchesBindingScope binding.bindingMatch
        ⟨input.peer, input.guildId, input.teamId, input.memberRoleIds⟩) :
      binding.bindingMatch.guildId = none := by
    by_contra hguild
    have hguild := Option.isSome_iff_ne_none.mpr hguild
    cases hroles : binding.bindingMatch.roles.isSome with
    | true =>
      refine unmatched hguildRoles binding hmem (Bool.and_eq_true_iff.mpr ⟨?_, hmatches⟩)
      exact Bool.and_eq_true_iff.mpr ⟨hguild, hroles⟩
    | false =>
      refine unmatched hguildOnly binding hmem (Bool.and_eq_true_iff.mpr ⟨?_, hmatches⟩)
      exact Bool.and_eq_true_iff.mpr ⟨hguild, by rw [hroles]; rfl⟩
  clear hguildRoles hguildOnly
  refine Buckets.findSome?_cons_congr (congrArg (Option.map _) ?_) fun hteamOnly => ?_
  · refine Tier.matched_eq_find (p := fun binding => binding.place = .team input.teamId)
      (fun hon => ?_) fun binding hmem hholds => ?_
    · have hid : input.teamId ≠ [] := of_decide_eq_true hon
      exact (candidatesById_eq _ hid).trans (h.byTeam hid)
    · obtain ⟨hasks, hmatches⟩ := Bool.and_eq_true_iff.mp hholds
      obtain ⟨id, hteam⟩ := Option.isSome_iff_exists.mp hasks
      have hid : id = input.teamId := (inScope_of_matches hmatches).teamId hteam
      subst hid
      refine ⟨decide_eq_true fun hnil => ?_, decide_eq_true ?_⟩
      · exact (hnormal binding hmem).teamId (hnil ▸ hteam)
      · rw [hplace binding hmem hmatches, EvaluatedBinding.peerlessPlace,
          hguildless binding hmem hmatches, hteam]
  -- nor for a team
  have hbare (binding : EvaluatedBinding) (hmem : binding ∈ bindings)
      (hmatches : matchesBindingScope binding.bindingMatch
        ⟨input.peer, input.guildId, input.teamId, input.memberRoleIds⟩) :
      binding.place =
        if binding.bindingMatch.accountPattern ≠ ['*'] then .account else .channel := by
    have hteam : binding.bindingMatch.teamId = none := by
      by_contra hteam
      refine unmatched hteamOnly binding hmem (Bool.and_eq_true_iff.mpr ⟨?_, hmatches⟩)
      exact Option.isSome_iff_ne_none.mpr hteam
    rw [hplace binding hmem hmatches, EvaluatedBinding.peerlessPlace,
      hguildless binding hmem hmatches, hteam]
  refine Buckets.findSome?_cons_congr (congrArg (Option.map _) ?_) fun _ => ?_
  · refine Tier.matched_eq_find (fun _ => h.byAccount) fun binding hmem hholds => ?_
    obtain ⟨hasks, hmatches⟩ := Bool.and_eq_true_iff.mp hholds
    refine ⟨rfl, decide_eq_true ?_⟩
    rw [hbare binding hmem hmatches, if_pos (of_decide_eq_true hasks)]
  refine Buckets.findSome?_cons_congr (congrArg (Option.map _) ?_) fun _ => rfl
  refine Tier.matched_eq_find (fun _ => h.byChannel) fun binding hmem hholds => ?_
  obtain ⟨hasks, hmatches⟩ := Bool.and_eq_true_iff.mp hholds
  refine ⟨rfl, decide_eq_true ?_⟩
  rw [hbare binding hmem hmatches, if_neg (not_not.mpr (of_decide_eq_true hasks))]

-- ---
-- Routes
-- ---

theorem evaluatedFrom_normal (bindings : List AgentBinding) :
    ∀ entry ∈ evaluatedFrom lower order bindings, entry.2.Normal := by
  have hid (value : Option Text) : normalizeIdOrNull value ≠ some [] :=
    fun h => (trimmed?_eq_some.mp h).1 rfl
  induction bindings generalizing order with
  | nil => simp [evaluatedFrom]
  | cons binding bindings ih =>
    rw [evaluatedFrom]
    split
    · exact ih
    · exact List.forall_mem_cons.mpr ⟨⟨hid _, hid _⟩, ih⟩

/-- The route of a call without caches is that of the binding which a plain scan selects. -/
theorem resolveAgentRoute_eq_plain (lower : LowerCase) (heap : Heap) (call : RouteCall) :
    let input := call.normalized lower
    let bindings :=
      plainBindings lower (heap.bindings call.cfg.bindings) input.channel input.accountId
    let chosen :=
      plainMatch bindings input (resolveDefaultAgentId lower (heap.agents call.cfg.agents))
    (resolveAgentRoute lower heap .empty call).1 =
      chooseRoute lower (buildAgentLookupCache lower heap call.cfg.agents)
        (heap.session call.cfg.session) input chosen.1 chosen.2 := by
  intro input bindings chosen
  have hbindings : bindingsFor lower heap call.cfg input.channel input.accountId = bindings :=
    bindingsFor_eq_plain call.cfg input.channel input.accountId
  have horder : bindings.Pairwise (·.order < ·.order) := plainBindings_pairwise _ _ _
  have hnodup : bindings.Nodup := by
    refine horder.imp ?_
    rintro binding _ hlt rfl
    exact Nat.lt_irrefl _ hlt
  have hnormal : ∀ binding ∈ bindings, binding.Normal := by
    intro binding hmem
    obtain ⟨entry, hentry, rfl⟩ := List.mem_map.mp hmem
    exact evaluatedFrom_normal _ entry (List.mem_of_mem_filter hentry)
  rw [(resolveAgentRoute_spec Caches.Sound.empty call (List.forall_mem_nil _)).1, computeRoute,
    hbindings, matchTiers_eq_plainMatch (indexHolds_build bindings) hnodup hnormal]

end OpenClaw.Routing
