import OpenClaw.Js.Value
import OpenClaw.Lib.Paging

/-!
# The run log of a cron job

Each finished run is a line of JSON. The lines are parsed, filtered and sorted by time, and
given out in pages; the newest entries are the first page, turned round. Parsing a line and
making text of a value are parameters.
-/

namespace OpenClaw.Cron

open Js Paging

/-- What the reader takes from the language. -/
structure RunLogEnv where
  /-- `JSON.parse` of a line; `none` throws. -/
  parse : String → Option Json
  /-- What joining makes of a value that is not `null`; `none` throws. -/
  itemText : Json → Option String
  toLowerCase : String → String

structure CronUsage where
  input_tokens : Option Number
  output_tokens : Option Number
  total_tokens : Option Number
  cache_read_tokens : Option Number
  cache_write_tokens : Option Number

/-- The fields that are taken over as they are may be any value. -/
structure CronRunLogEntry where
  ts : Rat
  jobId : String
  status : Option Json
  error : Option Json
  summary : Option Json
  runAtMs : Option Json
  durationMs : Option Json
  nextRunAtMs : Option Json
  model : Option String
  provider : Option String
  usage : Option CronUsage
  delivered : Option Bool
  deliveryStatus : Option String
  deliveryError : Option String
  sessionId : Option String
  sessionKey : Option String

-- ---
-- Lines
-- ---

def number? : Json → Option Number
  | .num n => some n
  | _ => none

def bool? : Json → Option Bool
  | .bool b => some b
  | _ => none

/-- A text that is not blank. -/
def text? (value : Option Json) : Option String :=
  (value.bind Json.str?).filter (trim · ≠ "")

def usage? : Option Json → Option CronUsage
  | some (.obj fields) => some {
      input_tokens := ((Json.obj fields).get? "input_tokens").bind number?
      output_tokens := ((Json.obj fields).get? "output_tokens").bind number?
      total_tokens := ((Json.obj fields).get? "total_tokens").bind number?
      cache_read_tokens := ((Json.obj fields).get? "cache_read_tokens").bind number?
      cache_write_tokens := ((Json.obj fields).get? "cache_write_tokens").bind number? }
  | some (.arr _) => some ⟨none, none, none, none, none⟩
  | _ => none

def DELIVERY_STATUSES : List String := ["delivered", "not-delivered", "unknown", "not-requested"]

/-- The entry of a parsed line: a finished run of a job, at a finite time. -/
def entryOf (jobId : Option String) (obj : Json) : Option CronRunLogEntry := do
  guard ((obj.get? "action").bind Json.str? = some "finished")
  let id ← text? (obj.get? "jobId")
  let ts ← match obj.get? "ts" with
    | some (.num (.fin ts)) => some ts
    | _ => none
  guard (jobId.all (id = ·))
  pure {
    ts
    jobId := id
    status := obj.get? "status"
    error := obj.get? "error"
    summary := obj.get? "summary"
    runAtMs := obj.get? "runAtMs"
    durationMs := obj.get? "durationMs"
    nextRunAtMs := obj.get? "nextRunAtMs"
    model := text? (obj.get? "model")
    provider := text? (obj.get? "provider")
    usage := usage? (obj.get? "usage")
    delivered := (obj.get? "delivered").bind bool?
    deliveryStatus := ((obj.get? "deliveryStatus").bind Json.str?).filter (· ∈ DELIVERY_STATUSES)
    deliveryError := (obj.get? "deliveryError").bind Json.str?
    sessionId := text? (obj.get? "sessionId")
    sessionKey := text? (obj.get? "sessionKey") }

/-- A line that is blank, or is no JSON, is passed over. -/
def lineEntry (env : RunLogEnv) (jobId : Option String) (line : String) : Option CronRunLogEntry :=
  if trim line = "" then none else (env.parse (trim line)).bind (entryOf jobId)

def lines (raw : String) : List String :=
  (raw.toList.splitOn '\n').map String.ofList

def parseAllRunLogEntries (env : RunLogEnv) (raw : String) (jobId : Option String) :
    List CronRunLogEntry :=
  let jobId := (jobId.map trim).filter (· ≠ "")
  if trim raw = "" then [] else (lines raw).filterMap (lineEntry env jobId)

-- ---
-- Filters
-- ---

def RUN_STATUSES : List String := ["ok", "error", "skipped"]

structure ReadCronRunLogPageOptions where
  limit : Option Int
  offset : Option Int
  jobId : Option String
  status : Option String
  statuses : List String
  deliveryStatus : Option String
  deliveryStatuses : List String
  query : Option String
  sortDir : Option String

/-- The known ones of a list, if there are any, or the single one, if it is known. -/
def chosen (known list : List String) (single : Option String) : Option (List String) :=
  match (list.filter (· ∈ known)).eraseDups with
  | [] => (single.filter (· ∈ known)).map fun value => [value]
  | filtered => some filtered

def normalizeRunStatuses (opts : ReadCronRunLogPageOptions) : Option (List String) :=
  chosen RUN_STATUSES opts.statuses opts.status

def normalizeDeliveryStatuses (opts : ReadCronRunLogPageOptions) : Option (List String) :=
  chosen DELIVERY_STATUSES opts.deliveryStatuses opts.deliveryStatus

/-- Whether the statuses of an entry are among those that are asked for. -/
def hasStatus (opts : ReadCronRunLogPageOptions) (entry : CronRunLogEntry) : Bool :=
  (normalizeRunStatuses opts).all (fun statuses =>
    (entry.status.bind Json.str?).any statuses.contains) &&
  (normalizeDeliveryStatuses opts).all (·.contains (entry.deliveryStatus.getD "not-requested"))

/-- `value ?? ""`, as part of a text. -/
def partText (env : RunLogEnv) : Option Json → Option String
  | none | some .null => some ""
  | some value => env.itemText value

/-- The summary, the error and the job, with blanks between. -/
def queryTextForEntry (env : RunLogEnv) (entry : CronRunLogEntry) : Option String := do
  let summary ← partText env entry.summary
  let error ← partText env entry.error
  pure (summary ++ " " ++ error ++ " " ++ entry.jobId)

def queryOf (env : RunLogEnv) (opts : ReadCronRunLogPageOptions) : String :=
  (opts.query.map fun query => env.toLowerCase (trim query)).getD ""

/-- `none` where making the text throws. -/
def matchesEntry (env : RunLogEnv) (opts : ReadCronRunLogPageOptions) (entry : CronRunLogEntry) :
    Option Bool :=
  if !hasStatus opts entry then some false
  else if queryOf env opts = "" then some true
  else (queryTextForEntry env entry).map fun text =>
    (env.toLowerCase text).toList.tails.any ((queryOf env opts).toList.isPrefixOf ·)

def filterRunLogEntries (env : RunLogEnv) (opts : ReadCronRunLogPageOptions) :
    List CronRunLogEntry → Option (List CronRunLogEntry)
  | [] => some []
  | entry :: entries => do
    let kept ← matchesEntry env opts entry
    let rest ← filterRunLogEntries env opts entries
    pure (if kept then entry :: rest else rest)

-- ---
-- Pages
-- ---

structure CronRunLogPage where
  entries : List CronRunLogEntry
  total : Nat
  offset : Nat
  limit : Nat
  hasMore : Bool
  nextOffset : Option Nat

def sortEntries (sortDir : Option String) (entries : List CronRunLogEntry) : List CronRunLogEntry :=
  if sortDir = some "asc" then entries.mergeSort (fun a b => a.ts ≤ b.ts)
  else entries.mergeSort (fun a b => b.ts ≤ a.ts)

/-- A number from the lower to the upper bound. -/
def clampTo (lower upper value : Int) : Nat :=
  (max lower (min upper value)).toNat

/-- `raw` is the content of the file, empty where it can not be read. -/
def readCronRunLogEntriesPage (env : RunLogEnv) (raw : String) (opts : ReadCronRunLogPageOptions) :
    Option CronRunLogPage := do
  let limit := clampTo 1 200 (opts.limit.getD 50)
  let filtered ← filterRunLogEntries env opts (parseAllRunLogEntries env raw opts.jobId)
  let sorted := sortEntries opts.sortDir filtered
  let total := sorted.length
  let offset := clampTo 0 total (opts.offset.getD 0)
  let entries := (sorted.drop offset).take limit
  let nextOffset := offset + entries.length
  pure {
    entries
    total
    offset
    limit
    hasMore := nextOffset < total
    nextOffset := if nextOffset < total then some nextOffset else none }

def readCronRunLogEntries (env : RunLogEnv) (raw : String) (limit : Option Int)
    (jobId : Option String) : Option (List CronRunLogEntry) := do
  let page ← readCronRunLogEntriesPage env raw {
    limit := some (clampTo 1 5000 (limit.getD 200))
    offset := some 0
    jobId
    status := some "all"
    statuses := []
    deliveryStatus := none
    deliveryStatuses := []
    query := none
    sortDir := some "desc" }
  pure page.entries.reverse

end OpenClaw.Cron

/-!
# The pages of a run log

The pages from the first on are the filtered entries, where the filter does not throw. The
newest entries are read through one page, and are as many as are asked for only where a page
can hold them.
-/

namespace OpenClaw.Cron

open Js Paging

variable {env : RunLogEnv} {opts : ReadCronRunLogPageOptions} {raw : String}

-- ---
-- Filters
-- ---

/-- The filter is asked for the text of no entry, or has it. -/
def Texts (env : RunLogEnv) (opts : ReadCronRunLogPageOptions) (entries : List CronRunLogEntry) :
    Prop :=
  queryOf env opts = "" ∨
    ∀ entry ∈ entries, hasStatus opts entry = true → (queryTextForEntry env entry).isSome = true

theorem isSome_matchesEntry {entry : CronRunLogEntry} :
    (matchesEntry env opts entry).isSome = true ↔
      (queryOf env opts = "" ∨ (hasStatus opts entry = true →
        (queryTextForEntry env entry).isSome = true)) := by
  unfold matchesEntry
  cases hasStatus opts entry with
  | false => simp
  | true =>
    by_cases hquery : queryOf env opts = ""
    · simp [hquery]
    · simp [hquery]

/-- The entries that match. -/
def matching (env : RunLogEnv) (opts : ReadCronRunLogPageOptions)
    (entries : List CronRunLogEntry) : List CronRunLogEntry :=
  entries.filter fun entry => matchesEntry env opts entry = some true

theorem filterRunLogEntries_some {entries : List CronRunLogEntry}
    (h : ∀ entry ∈ entries, (matchesEntry env opts entry).isSome = true) :
    filterRunLogEntries env opts entries = some (matching env opts entries) := by
  induction entries with
  | nil => rfl
  | cons entry entries ih =>
    rw [List.forall_mem_cons] at h
    obtain ⟨kept, hkept⟩ := Option.isSome_iff_exists.1 h.1
    cases kept <;>
      simp [filterRunLogEntries, hkept, ih h.2, matching]

theorem filterRunLogEntries_none {entries : List CronRunLogEntry} {entry : CronRunLogEntry}
    (hentry : entry ∈ entries) (hnone : matchesEntry env opts entry = none) :
    filterRunLogEntries env opts entries = none := by
  induction entries with
  | nil => cases hentry
  | cons first entries ih =>
    rcases List.mem_cons.1 hentry with rfl | hrest
    · simp [filterRunLogEntries, hnone]
    · simp [filterRunLogEntries, ih hrest]

/-- Where the filter answers, the entries that match are what it gives. -/
theorem filterRunLogEntries_iff (env : RunLogEnv) (opts : ReadCronRunLogPageOptions)
    (entries : List CronRunLogEntry) :
    (filterRunLogEntries env opts entries = some (matching env opts entries) ↔
        Texts env opts entries) ∧
      (filterRunLogEntries env opts entries = none ↔ ¬ Texts env opts entries) := by
  have htexts : Texts env opts entries ↔
      ∀ entry ∈ entries, (matchesEntry env opts entry).isSome = true := by
    simp only [isSome_matchesEntry, Texts]
    constructor
    · rintro (hquery | htext) entry hentry
      · exact .inl hquery
      · exact .inr (htext entry hentry)
    · intro h
      by_cases hquery : queryOf env opts = ""
      · exact .inl hquery
      · exact .inr fun entry hentry => (h entry hentry).resolve_left hquery
  by_cases h : ∀ entry ∈ entries, (matchesEntry env opts entry).isSome = true
  · rw [filterRunLogEntries_some h, htexts]
    exact ⟨iff_of_true rfl h, iff_of_false (fun hnone => nomatch hnone) fun hnot => hnot h⟩
  · obtain ⟨entry, hentry, hnone⟩ :
        ∃ entry ∈ entries, matchesEntry env opts entry = none := by
      simpa using h
    rw [filterRunLogEntries_none hentry hnone, htexts]
    exact ⟨iff_of_false (fun hsome => nomatch hsome) h, iff_of_true rfl h⟩

-- ---
-- Pages
-- ---

theorem sortEntries_perm (sortDir : Option String) (entries : List CronRunLogEntry) :
    (sortEntries sortDir entries).Perm entries := by
  unfold sortEntries
  split <;> exact List.mergeSort_perm _ _

theorem sortEntries_desc (entries : List CronRunLogEntry) :
    (sortEntries (some "desc") entries).Pairwise fun a b => b.ts ≤ a.ts := by
  have htrans : ∀ a b c : CronRunLogEntry, decide (b.ts ≤ a.ts) = true →
      decide (c.ts ≤ b.ts) = true → decide (c.ts ≤ a.ts) = true := fun a b c hab hbc =>
    decide_eq_true ((of_decide_eq_true hbc).trans (of_decide_eq_true hab))
  have htotal : ∀ a b : CronRunLogEntry,
      (decide (b.ts ≤ a.ts) || decide (a.ts ≤ b.ts)) = true := fun a b => by
    simpa using le_total b.ts a.ts
  rw [sortEntries, if_neg (by decide)]
  exact (List.pairwise_mergeSort htrans htotal entries).imp of_decide_eq_true

/-- The page at an offset, and the offset to go on from while there are more. -/
def pageReader (env : RunLogEnv) (raw : String) (opts : ReadCronRunLogPageOptions) (offset : Nat) :
    Option (List CronRunLogEntry × Option Nat) :=
  (readCronRunLogEntriesPage env raw { opts with offset := some offset }).map fun page =>
    (page.entries, if page.hasMore then page.nextOffset else none)

theorem filterRunLogEntries_offset (offset : Option Int) (entries : List CronRunLogEntry) :
    filterRunLogEntries env { opts with offset } entries = filterRunLogEntries env opts entries := by
  induction entries with
  | nil => rfl
  | cons entry entries ih => simp only [filterRunLogEntries, ih]; rfl

theorem clampTo_of_le {total offset : Nat} (h : offset ≤ total) :
    clampTo 0 total offset = offset := by
  unfold clampTo
  omega

theorem pageReader_eq {filtered : List CronRunLogEntry} {offset : Nat}
    (hfiltered : filterRunLogEntries env opts (parseAllRunLogEntries env raw opts.jobId) =
      some filtered)
    (hoffset : offset ≤ (sortEntries opts.sortDir filtered).length) :
    pageReader env raw opts offset = some (pageAt (sortEntries opts.sortDir filtered)
      (clampTo 1 200 (opts.limit.getD 50)) offset) := by
  simp only [pageReader, readCronRunLogEntriesPage, filterRunLogEntries_offset, hfiltered, bind,
    Option.bind_some, Option.getD_some, clampTo_of_le hoffset, pure, Option.map_some, pageAt,
    List.length_take, List.length_drop, decide_eq_true_eq]
  by_cases hmore : offset + clampTo 1 200 (opts.limit.getD 50) <
      (sortEntries opts.sortDir filtered).length
  · have hfull : min (clampTo 1 200 (opts.limit.getD 50))
        ((sortEntries opts.sortDir filtered).length - offset) =
        clampTo 1 200 (opts.limit.getD 50) := by
      omega
    rw [hfull, if_pos hmore, if_pos hmore]
  · rw [if_neg hmore, if_neg]
    omega

theorem pageReader_none
    (hnone : filterRunLogEntries env opts (parseAllRunLogEntries env raw opts.jobId) = none)
    (offset : Nat) : pageReader env raw opts offset = none := by
  simp only [pageReader, readCronRunLogEntriesPage, filterRunLogEntries_offset, hnone, bind,
    Option.bind_none, Option.map_none]

/-- Following the offsets gives every entry that matches, each once, where the filter has
the texts it asks for. -/
theorem pages_iff (env : RunLogEnv) (raw : String) (opts : ReadCronRunLogPageOptions) :
    (∃ items, items.Perm (matching env opts (parseAllRunLogEntries env raw opts.jobId)) ∧
        ∀ other, Collects (pageReader env raw opts) 0 other ↔ other = items) ↔
      Texts env opts (parseAllRunLogEntries env raw opts.jobId) := by
  obtain ⟨hsome, hnone⟩ := filterRunLogEntries_iff env opts
    (parseAllRunLogEntries env raw opts.jobId)
  constructor
  · rintro ⟨items, -, hitems⟩
    by_contra hthrows
    have hread := pageReader_none (hnone.2 hthrows) 0
    cases (hitems items).2 rfl with
    | last hpage => rw [hread] at hpage; cases hpage
    | more hpage => rw [hread] at hpage; cases hpage
  · intro htexts
    have hfiltered := hsome.2 htexts
    refine ⟨_, sortEntries_perm opts.sortDir _,
      collects_iff ?_ fun offset => pageReader_eq hfiltered⟩
    unfold clampTo
    omega

-- ---
-- The newest entries
-- ---

theorem clampTo_clampTo (limit : Int) :
    clampTo 1 200 (clampTo 1 5000 limit) = clampTo 1 200 limit := by
  unfold clampTo
  omega

theorem readCronRunLogEntries_eq (env : RunLogEnv) (raw : String) (limit : Option Int)
    (jobId : Option String) :
    readCronRunLogEntries env raw limit jobId =
      some ((sortEntries (some "desc") (parseAllRunLogEntries env raw jobId)).take
        (clampTo 1 200 (limit.getD 200))).reverse := by
  have hfiltered : ∀ entries, filterRunLogEntries env {
      limit := some (clampTo 1 5000 (limit.getD 200))
      offset := some 0
      jobId
      status := some "all"
      statuses := []
      deliveryStatus := none
      deliveryStatuses := []
      query := none
      sortDir := some "desc" } entries = some entries := by
    intro entries
    induction entries with
    | nil => rfl
    | cons entry entries ih => simp only [filterRunLogEntries, ih]; rfl
  have hstart : ∀ total : Nat, clampTo 0 total 0 = 0 := fun total =>
    clampTo_of_le (Nat.zero_le total)
  simp only [readCronRunLogEntries, readCronRunLogEntriesPage, hfiltered, bind, Option.bind_some,
    Option.getD_some, pure, clampTo_clampTo, hstart, List.drop_zero]

theorem newest_iff (env : RunLogEnv) (raw : String) (limit : Option Int) (jobId : Option String) :
    (∃ entries, readCronRunLogEntries env raw limit jobId = some entries ∧
        Newest CronRunLogEntry.ts (min (limit.getD 200) 5000).toNat
          (parseAllRunLogEntries env raw jobId) entries) ↔
      (1 ≤ limit.getD 200 ∨ (parseAllRunLogEntries env raw jobId).length = 0) ∧
        (limit.getD 200 ≤ 200 ∨ (parseAllRunLogEntries env raw jobId).length ≤ 200) := by
  have hnewest := newest_of_sorted (sortEntries_perm _ (parseAllRunLogEntries env raw jobId))
    (sortEntries_desc _) (clampTo 1 200 (limit.getD 200))
  have hcount : (1 ≤ limit.getD 200 ∨ (parseAllRunLogEntries env raw jobId).length = 0) ∧
        (limit.getD 200 ≤ 200 ∨ (parseAllRunLogEntries env raw jobId).length ≤ 200) ↔
      min (clampTo 1 200 (limit.getD 200)) (parseAllRunLogEntries env raw jobId).length =
        min (min (limit.getD 200) 5000).toNat (parseAllRunLogEntries env raw jobId).length := by
    unfold clampTo
    omega
  rw [hcount, readCronRunLogEntries_eq]
  constructor
  · rintro ⟨entries, hentries, hcounted⟩
    cases hentries
    exact hnewest.length.symm.trans hcounted.length
  · exact fun heq => ⟨_, rfl, hnewest.length.trans heq, hnewest.sorted, hnewest.newest⟩

/-- Both laws of the readers, with the condition of each. -/
theorem runLog_read_iff (env : RunLogEnv) (raw : String) (limit : Option Int)
    (jobId : Option String) (opts : ReadCronRunLogPageOptions) :
    ((∃ entries, readCronRunLogEntries env raw limit jobId = some entries ∧
          Newest CronRunLogEntry.ts (min (limit.getD 200) 5000).toNat
            (parseAllRunLogEntries env raw jobId) entries) ↔
        (1 ≤ limit.getD 200 ∨ (parseAllRunLogEntries env raw jobId).length = 0) ∧
          (limit.getD 200 ≤ 200 ∨ (parseAllRunLogEntries env raw jobId).length ≤ 200)) ∧
      ((∃ items, items.Perm (matching env opts (parseAllRunLogEntries env raw opts.jobId)) ∧
          ∀ other, Collects (pageReader env raw opts) 0 other ↔ other = items) ↔
        Texts env opts (parseAllRunLogEntries env raw opts.jobId)) :=
  ⟨newest_iff env raw limit jobId, pages_iff env raw opts⟩

-- ---
-- A log that is too long
-- ---

/-- Any line is a finished run of one job. -/
def plainLog : RunLogEnv where
  parse _ := some (.obj
    [("action", .str "finished"), ("jobId", .str "job"), ("ts", .num (.ofInt 1))])
  itemText _ := some ""
  toLowerCase text := text

/-- Two hundred and one lines. -/
def longText : List Char :=
  (List.replicate 200 ['x', '\n']).flatten ++ ['x']

def longLog : String :=
  String.ofList longText

theorem lines_longLog : lines longLog = List.replicate 201 "x" := by
  have hlines : (longText.splitOn '\n').map String.ofList = List.replicate 201 "x" := by
    decide +kernel
  rw [← hlines, lines, longLog, String.toList_ofList]

theorem trim_longLog : trim longLog ≠ "" := by
  have htext : trimChars longText ≠ [] := by decide
  intro hblank
  rw [trim, longLog, String.toList_ofList] at hblank
  exact htext (String.ofList_eq_empty_iff.1 hblank)

theorem longLog_length : (parseAllRunLogEntries plainLog longLog none).length = 201 := by
  obtain ⟨entry, hentry⟩ : ∃ entry, lineEntry plainLog none "x" = some entry := ⟨_, rfl⟩
  simp only [parseAllRunLogEntries, if_neg trim_longLog, lines_longLog, Option.map_none,
    Option.filter_none, List.filterMap_replicate_of_some hentry, List.length_replicate]

/-- Of its 201 entries all are asked for, and 200 are given. -/
theorem not_runLog_read :
    ¬ ∀ (env : RunLogEnv) (raw : String) (limit : Option Int) (jobId : Option String),
      ∃ entries, readCronRunLogEntries env raw limit jobId = some entries ∧
        Newest CronRunLogEntry.ts (min (limit.getD 200) 5000).toNat
          (parseAllRunLogEntries env raw jobId) entries := by
  intro h
  have hlimit := (newest_iff plainLog longLog (some 5000) none).1 (h _ _ _ _)
  rw [longLog_length] at hlimit
  exact absurd hlimit.2 (by decide)

end OpenClaw.Cron
