import OpenClaw.Js.Text
import OpenClaw.Lib.MapState
import OpenClaw.Lib.Members
import OpenClaw.Lib.Paging

/-!
# Dedupe cache

A cache of the keys seen lately, bounded in time and in size. It answers as a memory of the
keys seen last does that forgets nothing else: what it drops early had expired.
-/

namespace OpenClaw.Dedupe

open Js (Text)
open Members (remove)

-- ---
-- The cache
-- ---

/-- The entries of the map in insertion order, with the times they were set at. -/
abbrev Entries := List (Text × Int)

structure DedupeCache where
  ttlMs : Int
  maxSize : Int
  cache : Entries := []

def createDedupeCache (ttlMs maxSize : Int) : DedupeCache where
  ttlMs := max 0 ttlMs
  maxSize := max 0 maxSize

def touch (cache : Entries) (key : Text) (now : Int) : Entries := remove cache key ++ [(key, now)]

/-- The loop of `pruneMapToMaxSize`. -/
def dropOldest (limit : Int) : Entries → Entries
  | [] => []
  | entry :: rest =>
    if limit < (entry :: rest).length then dropOldest limit rest else entry :: rest

def pruneMapToMaxSize (map : Entries) (maxSize : Int) : Entries :=
  let limit := max 0 maxSize
  if limit ≤ 0 then [] else dropOldest limit map

def DedupeCache.prune (c : DedupeCache) (now : Int) : DedupeCache :=
  let kept := if 0 < c.ttlMs then c.cache.filter fun entry => ¬ entry.2 < now - c.ttlMs else c.cache
  if c.maxSize ≤ 0 then { c with cache := [] }
  else { c with cache := pruneMapToMaxSize kept c.maxSize }

def DedupeCache.hasUnexpired (c : DedupeCache) (key : Text) (now : Int) (touchOnRead : Bool) :
    Bool × DedupeCache :=
  match c.cache.lookup key with
  | none => (false, c)
  | some existing =>
    if 0 < c.ttlMs ∧ now - existing ≥ c.ttlMs then (false, { c with cache := remove c.cache key })
    else (true, if touchOnRead then { c with cache := touch c.cache key now } else c)

inductive Call
  | check (key : Text)
  | peek (key : Text)
  | delete (key : Text)
  | clear

/-- A missing key is no key, as the empty one. -/
def DedupeCache.call (c : DedupeCache) (now : Int) : Call → Bool × DedupeCache
  | .check key =>
    if key = [] then (false, c)
    else
      let (found, c) := c.hasUnexpired key now true
      if found then (true, c)
      else (false, { c with cache := touch c.cache key now }.prune now)
  | .peek key => if key = [] then (false, c) else c.hasUnexpired key now false
  | .delete key => (false, if key = [] then c else { c with cache := remove c.cache key })
  | .clear => (false, { c with cache := [] })

-- ---
-- The memory it stands for
-- ---

/-- The keys seen last, the latest at the end, with the times they were seen at. -/
structure Memory where
  ttl : Int
  capacity : Nat
  seen : Entries := []

/-- What was seen at this time is forgotten `ttl` later, if ever. -/
def fresh (ttl now : Int) (entry : Text × Int) : Bool := ttl ≤ 0 || decide (now - entry.2 < ttl)

def Memory.recalls (m : Memory) (key : Text) (now : Int) : Bool :=
  m.seen.any fun entry => entry.1 = key && fresh m.ttl now entry

def Memory.see (m : Memory) (key : Text) (now : Int) : Memory :=
  { m with seen := (touch m.seen key now).rtake m.capacity }

def Memory.call (m : Memory) (now : Int) : Call → Bool × Memory
  | .check key => if key = [] then (false, m) else (m.recalls key now, m.see key now)
  | .peek key => (key ≠ [] && m.recalls key now, m)
  | .delete key => (false, if key = [] then m else { m with seen := remove m.seen key })
  | .clear => (false, { m with seen := [] })

-- ---
-- Calls one after another
-- ---

/-- A call some time after the one before, with the clock as part of the state. -/
def timed (call : σ → Int → Call → Bool × σ) (s : Int × σ) (next : Nat × Call) :
    Bool × (Int × σ) :=
  let now := s.1 + next.1
  let (answer, s') := call s.2 now next.2
  (answer, now, s')

def fresh? (ttl now : Int) (entries : Entries) : Entries := entries.filter (fresh ttl now)

/-- Entries in the order of their times, none later than now, and no key twice. -/
structure Ordered (now : Int) (entries : Entries) : Prop where
  nodup : (entries.map Prod.fst).Nodup
  sorted : entries.Pairwise fun a b => a.2 ≤ b.2
  past : ∀ entry ∈ entries, entry.2 ≤ now

variable {entries kept : Entries} {ttl now now' : Int} {key : Text} {c : DedupeCache} {m : Memory}

theorem ordered_nil : Ordered now [] := ⟨List.nodup_nil, .nil, nofun⟩

theorem Ordered.later (h : Ordered now entries) (hnow : now ≤ now') : Ordered now' entries :=
  ⟨h.nodup, h.sorted, fun entry hentry => (h.past entry hentry).trans hnow⟩

theorem Ordered.sublist (h : Ordered now entries) (hkept : kept.Sublist entries) :
    Ordered now kept :=
  ⟨h.nodup.sublist (hkept.map _), h.sorted.sublist hkept,
    fun entry hentry => h.past entry (hkept.subset hentry)⟩

theorem remove_sublist (entries : Entries) (key : Text) : (remove entries key).Sublist entries :=
  List.filter_sublist

theorem Ordered.touch (h : Ordered now entries) (key : Text) :
    Ordered now (touch entries key now) := by
  have hrest := h.sublist (remove_sublist entries key)
  refine ⟨?_, ?_, ?_⟩
  · rw [Dedupe.touch, List.map_append, List.map_singleton]
    refine List.Nodup.append hrest.nodup (List.nodup_singleton key) ?_
    simp [remove]
  · refine List.pairwise_append.2 ⟨hrest.sorted, List.pairwise_singleton _ _, ?_⟩
    rintro entry hentry _ hnew
    rw [List.mem_singleton.1 hnew]
    exact hrest.past entry hentry
  · intro entry hentry
    rcases List.mem_append.1 hentry with hold | hnew
    · exact hrest.past entry hold
    · rw [List.mem_singleton.1 hnew]

theorem fresh_mono {a b : Text × Int} (hle : a.2 ≤ b.2) (h : fresh ttl now a = true) :
    fresh ttl now b = true := by
  simp only [fresh, Bool.or_eq_true, decide_eq_true_eq] at h ⊢
  omega

theorem fresh?_rtake (h : Ordered now' entries) (n : Nat) :
    fresh? ttl now (entries.rtake n) = (fresh? ttl now entries).rtake n :=
  Window.filter_rtake (h.sorted.imp fun hle => fresh_mono hle) n

theorem fresh?_later (hnow : now ≤ now') (entries : Entries) :
    fresh? ttl now' (fresh? ttl now entries) = fresh? ttl now' entries := by
  rw [fresh?, fresh?, List.filter_filter, fresh?]
  refine List.filter_congr fun entry _ => ?_
  rw [Bool.eq_iff_iff]
  simp only [fresh, Bool.and_eq_true, Bool.or_eq_true, decide_eq_true_eq]
  omega

theorem fresh?_remove (entries : Entries) (key : Text) :
    fresh? ttl now (remove entries key) = remove (fresh? ttl now entries) key := by
  simp [fresh?, remove, List.filter_filter, Bool.and_comm]

theorem fresh?_touch (entries : Entries) (key : Text) :
    fresh? ttl now (touch entries key now) = touch (fresh? ttl now entries) key now := by
  have hnew : fresh ttl now (key, now) = true := by
    simp only [fresh, Bool.or_eq_true, decide_eq_true_eq]
    omega
  rw [touch, touch, ← fresh?_remove, fresh?, List.filter_append, List.filter_singleton, hnew]
  rfl

theorem dropOldest_eq (n : Nat) (entries : Entries) : dropOldest n entries = entries.rtake n := by
  induction entries with
  | nil => simp [dropOldest]
  | cons entry rest ih =>
    rw [dropOldest]
    split
    case isTrue hmore =>
      have hn : n ≤ rest.length := by
        simp only [List.length_cons] at hmore
        omega
      rw [ih, ← List.singleton_append, Window.rtake_append_of_le _ _ hn]
    case isFalse hfits => exact (Window.rtake_of_length_le (by omega)).symm

theorem recalls_eq (m : Memory) (key : Text) (now : Int) :
    m.recalls key now = (fresh? m.ttl now m.seen).any fun entry => entry.1 = key := by
  simp [Memory.recalls, fresh?, List.any_filter, Bool.and_comm]

-- ---
-- Refinement
-- ---

/-- The cache and the memory differ in what has expired only. -/
structure Refines (now : Int) (c : DedupeCache) (m : Memory) : Prop where
  ttl : c.ttlMs = m.ttl
  size : c.maxSize = m.capacity
  cache : Ordered now c.cache
  seen : Ordered now m.seen
  length : c.cache.length ≤ m.capacity
  fresh : fresh? m.ttl now c.cache = fresh? m.ttl now m.seen

theorem Refines.later (h : Refines now c m) (hnow : now ≤ now') : Refines now' c m where
  ttl := h.ttl
  size := h.size
  cache := h.cache.later hnow
  seen := h.seen.later hnow
  length := h.length
  fresh := by rw [← fresh?_later hnow, h.fresh, fresh?_later hnow]

/-- Reading finds what is fresh, and drops an entry only where it has expired. -/
theorem hasUnexpired_spec (h : (c.cache.map Prod.fst).Nodup) (key : Text) (now : Int)
    (touchOnRead : Bool) :
    ((fresh? c.ttlMs now c.cache).any fun entry => entry.1 = key) = true ∧
        key ∈ c.cache.map Prod.fst ∧
        c.hasUnexpired key now touchOnRead =
          (true, if touchOnRead then { c with cache := touch c.cache key now } else c) ∨
      ((fresh? c.ttlMs now c.cache).any fun entry => entry.1 = key) = false ∧
        ∃ kept, c.hasUnexpired key now touchOnRead = (false, { c with cache := kept }) ∧
          kept.Sublist c.cache ∧ fresh? c.ttlMs now kept = fresh? c.ttlMs now c.cache := by
  have hany : ((fresh? c.ttlMs now c.cache).any fun entry => entry.1 = key) = true ↔
      ∃ ts, c.cache.lookup key = some ts ∧ fresh c.ttlMs now (key, ts) = true := by
    simp only [fresh?, List.any_filter, List.any_eq_true, Bool.and_eq_true, decide_eq_true_eq]
    constructor
    · rintro ⟨⟨_, ts⟩, hentry, hfresh, rfl⟩
      exact ⟨ts, Members.lookup_of_mem h hentry, hfresh⟩
    · rintro ⟨ts, hlookup, hfresh⟩
      exact ⟨(key, ts), Members.mem_of_lookup hlookup, hfresh, rfl⟩
  unfold DedupeCache.hasUnexpired
  cases hlookup : c.cache.lookup key with
  | none =>
    refine .inr ⟨?_, c.cache, rfl, .refl _, rfl⟩
    rw [Bool.eq_false_iff, ne_eq, hany]
    simp [hlookup]
  | some ts =>
    have hmem := Members.mem_of_lookup hlookup
    dsimp only
    split
    case isTrue hexpired =>
      have hstale : fresh c.ttlMs now (key, ts) = false := by
        simp only [fresh, Bool.or_eq_false_iff, decide_eq_false_iff_not]
        omega
      refine .inr ⟨?_, _, rfl, remove_sublist _ _, ?_⟩
      · rw [Bool.eq_false_iff, ne_eq, hany]
        simp [hlookup, hstale]
      · rw [fresh?_remove]
        refine Members.remove_eq_self fun hkey => ?_
        obtain ⟨⟨_, other⟩, hother, rfl⟩ := List.mem_map.1 hkey
        obtain ⟨hother, hfresh⟩ := List.mem_filter.1 hother
        rw [Members.lookup_of_mem h hother] at hlookup
        cases hlookup
        rw [hstale] at hfresh
        cases hfresh
    case isFalse hvalid =>
      refine .inl ⟨hany.2 ⟨ts, hlookup, ?_⟩, List.mem_map_of_mem hmem, rfl⟩
      simp only [fresh, Bool.or_eq_true, decide_eq_true_eq]
      omega

/-- Pruning keeps the fresh ones among the last entries. -/
theorem prune_spec (h : Ordered now c.cache) {n : Nat} (hsize : c.maxSize = n) :
    ∃ kept, c.prune now = { c with cache := kept } ∧ kept.Sublist c.cache ∧ kept.length ≤ n ∧
      fresh? c.ttlMs now kept = (fresh? c.ttlMs now c.cache).rtake n := by
  unfold DedupeCache.prune
  dsimp only
  split
  case isTrue hnone =>
    obtain rfl : n = 0 := by omega
    exact ⟨[], rfl, List.nil_sublist _, le_rfl, by simp [fresh?]⟩
  case isFalse hsome =>
    refine ⟨_, rfl, ?_⟩
    rw [pruneMapToMaxSize, if_neg (by omega), show max 0 c.maxSize = (n : Int) by omega,
      dropOldest_eq]
    have hkept : (if 0 < c.ttlMs then c.cache.filter fun entry => ¬ entry.2 < now - c.ttlMs
        else c.cache).Sublist c.cache := by
      split
      · exact List.filter_sublist
      · exact .refl _
    refine ⟨(List.drop_sublist _ _).trans hkept, ?_, ?_⟩
    · rw [Window.length_rtake]
      exact min_le_left _ _
    · rw [fresh?_rtake (h.sublist hkept)]
      congr 1
      split
      case isTrue httl =>
        rw [fresh?, List.filter_filter, fresh?]
        refine List.filter_congr fun entry _ => ?_
        rw [Bool.eq_iff_iff]
        simp only [fresh, Bool.and_eq_true, Bool.or_eq_true, decide_eq_true_eq]
        omega
      case isFalse => rfl

theorem Refines.see {cache : Entries} (h : Refines now c m) (hcache : Ordered now cache)
    (hlength : cache.length ≤ m.capacity)
    (hfresh : fresh? m.ttl now cache =
      (touch (fresh? m.ttl now c.cache) key now).rtake m.capacity) :
    Refines now { c with cache } (m.see key now) where
  ttl := h.ttl
  size := h.size
  cache := hcache
  seen := (h.seen.touch key).sublist (List.drop_sublist _ _)
  length := hlength
  fresh := by
    change fresh? m.ttl now cache = fresh? m.ttl now ((touch m.seen key now).rtake m.capacity)
    rw [hfresh, h.fresh, fresh?_rtake (h.seen.touch key), fresh?_touch]

theorem Refines.check (h : Refines now c m) (key : Text) :
    (c.call now (.check key)).1 = (m.call now (.check key)).1 ∧
      Refines now (c.call now (.check key)).2 (m.call now (.check key)).2 := by
  simp only [DedupeCache.call, Memory.call]
  split
  case isTrue => exact ⟨rfl, h⟩
  case isFalse =>
    rw [recalls_eq, ← h.fresh, ← h.ttl]
    rcases hasUnexpired_spec h.cache.nodup key now true with
      ⟨hfound, hkey, hread⟩ | ⟨hmissed, kept, hread, hsub, hsame⟩
    · rw [hread, hfound]
      have hlength : (touch c.cache key now).length ≤ m.capacity := by
        obtain ⟨ts, hlookup⟩ := Option.isSome_iff_exists.1 (Members.lookup_isSome_iff.2 hkey)
        have hremoved := Members.length_remove h.cache.nodup hlookup
        simpa [touch, hremoved] using h.length
      refine ⟨rfl, h.see (h.cache.touch key) hlength ?_⟩
      rw [← fresh?_touch]
      exact (Window.rtake_of_length_le ((List.length_filter_le _ _).trans hlength)).symm
    · rw [hread, hmissed]
      have hordered := (h.cache.sublist hsub).touch key
      obtain ⟨pruned, hpruned, hprunedSub, hlength, hfresh⟩ :=
        prune_spec (c := { c with cache := touch kept key now }) hordered h.size
      refine ⟨rfl, ?_⟩
      simp only [Bool.false_eq_true, if_false, hpruned]
      refine h.see (hordered.sublist hprunedSub) hlength ?_
      rw [← h.ttl, hfresh, fresh?_touch, hsame]

theorem Refines.remove (h : Refines now c m) (key : Text) :
    Refines now { c with cache := remove c.cache key } { m with seen := remove m.seen key } where
  ttl := h.ttl
  size := h.size
  cache := h.cache.sublist (remove_sublist _ _)
  seen := h.seen.sublist (remove_sublist _ _)
  length := (remove_sublist c.cache key).length_le.trans h.length
  fresh := by
    change fresh? m.ttl now (Members.remove c.cache key) =
      fresh? m.ttl now (Members.remove m.seen key)
    rw [fresh?_remove, fresh?_remove, h.fresh]

theorem Refines.call (h : Refines now c m) (call : Call) :
    (c.call now call).1 = (m.call now call).1 ∧
      Refines now (c.call now call).2 (m.call now call).2 := by
  cases call with
  | check key => exact h.check key
  | peek key =>
    simp only [DedupeCache.call, Memory.call]
    split
    case isTrue hempty => exact ⟨by simp [hempty], h⟩
    case isFalse hkey =>
      rw [recalls_eq, ← h.fresh, ← h.ttl]
      rcases hasUnexpired_spec h.cache.nodup key now false with
        ⟨hfound, -, hread⟩ | ⟨hmissed, kept, hread, hsub, hsame⟩
      · rw [hread, hfound]
        exact ⟨by simp [hkey], h⟩
      · rw [hread, hmissed]
        exact ⟨by simp, h.ttl, h.size, h.cache.sublist hsub, h.seen, hsub.length_le.trans h.length,
          by rw [← h.fresh, ← h.ttl]; exact hsame⟩
  | delete key =>
    simp only [DedupeCache.call, Memory.call]
    split
    case isTrue => exact ⟨trivial, h⟩
    case isFalse => exact ⟨trivial, h.remove key⟩
  | clear =>
    exact ⟨rfl, h.ttl, h.size, ordered_nil, ordered_nil, Nat.zero_le _, rfl⟩

theorem capacity_call (m : Memory) (now : Int) (call : Call) :
    (m.call now call).2.capacity = m.capacity := by
  cases call <;> simp only [Memory.call] <;> split <;> rfl

theorem run_refines (h : Refines now c m) (calls : List (Nat × Call)) :
    (mapState (timed DedupeCache.call) (now, c) calls).1 =
        (mapState (timed Memory.call) (now, m) calls).1 ∧
      (mapState (timed DedupeCache.call) (now, c) calls).2.2.cache.length ≤ m.capacity := by
  induction calls generalizing now c m with
  | nil => exact ⟨rfl, h.length⟩
  | cons next calls ih =>
    have hlater : Refines (now + next.1) c m := h.later (by omega)
    obtain ⟨hanswer, hnext⟩ := hlater.call next.2
    obtain ⟨hanswers, hsize⟩ := ih hnext
    rw [mapState.cons, mapState.cons]
    exact ⟨List.cons_eq_cons.2 ⟨hanswer, hanswers⟩, capacity_call m _ _ ▸ hsize⟩

/-- Over any calls at times that do not decrease, the cache answers as the memory of the keys
seen last does, and never holds more keys than it may. -/
theorem dedupeCache_refines_memory (ttlMs maxSize start : Int) (calls : List (Nat × Call)) :
    (mapState (timed DedupeCache.call) (start, createDedupeCache ttlMs maxSize) calls).1 =
        (mapState (timed Memory.call) (start, ⟨max 0 ttlMs, maxSize.toNat, []⟩) calls).1 ∧
      (mapState (timed DedupeCache.call) (start, createDedupeCache ttlMs maxSize) calls
        ).2.2.cache.length ≤ maxSize.toNat :=
  run_refines ⟨rfl, (Int.ofNat_toNat maxSize).symm ▸ max_comm 0 maxSize, ordered_nil, ordered_nil,
    Nat.zero_le _, rfl⟩ calls

end OpenClaw.Dedupe
