import OpenClaw.Js.Text

/-!
# Local times

`parseOffsetlessIsoDateTimeInTimeZone` reads a date and time without an offset as one of a time
zone. The zone is known by its offsets, as `Intl.DateTimeFormat` shows them; instants are
milliseconds.
-/

namespace OpenClaw.FormatTime

open Js (Text)

structure OffsetlessIsoDateTimeParts where
  year : Int
  month : Int
  day : Int
  hour : Int
  minute : Int
  second : Int
  millisecond : Int
  deriving DecidableEq

-- ---
-- The calendar
-- ---

/-- The day of a date, for years that begin in March and are counted from the year 0. -/
def dayOf (year month day : Int) : Int :=
  let y := if month ≤ 2 then year - 1 else year
  let monthFromMarch := if month ≤ 2 then month + 9 else month - 3
  365 * y + y / 4 - y / 100 + y / 400 + (153 * monthFromMarch + 2) / 5 + day - 719469

/-- Year, month and day. A cycle of 400 years begins with a March. -/
def dateOf (z : Int) : Int × Int × Int :=
  let cycle := (z + 719468) / 146097
  let dayOfCycle := (z + 719468) % 146097
  let century := min (dayOfCycle / 36524) 3
  let dayOfCentury := dayOfCycle - 36524 * century
  let leap := dayOfCentury / 1461
  let dayOfLeap := dayOfCentury - 1461 * leap
  let year := min (dayOfLeap / 365) 3
  let dayOfYear := dayOfLeap - 365 * year
  let monthFromMarch := (5 * dayOfYear + 2) / 153
  let y := 400 * cycle + 100 * century + 4 * leap + year
  (if monthFromMarch < 10 then y else y + 1,
    if monthFromMarch < 10 then monthFromMarch + 3 else monthFromMarch - 9,
    dayOfYear - (153 * monthFromMarch + 2) / 5 + 1)

/-- `Date.UTC`, for years from 100 on. -/
def dateUTC (p : OffsetlessIsoDateTimeParts) : Int :=
  (((dayOf p.year p.month p.day * 24 + p.hour) * 60 + p.minute) * 60 + p.second) * 1000

/-- What a clock shows that is so many milliseconds ahead of the year 1970. -/
def partsOf (wall : Int) : OffsetlessIsoDateTimeParts :=
  let (year, month, day) := dateOf (wall / 86400000)
  { year, month, day
    hour := wall % 86400000 / 3600000
    minute := wall % 3600000 / 60000
    second := wall % 60000 / 1000
    millisecond := wall % 1000 }

theorem dayOf_eq {cycle century leap year month : Int} (hcentury : 0 ≤ century ∧ century ≤ 3)
    (hleap : 0 ≤ leap ∧ leap ≤ 24) (hyear : 0 ≤ year ∧ year ≤ 3) (hmonth : 0 ≤ month ∧ month ≤ 11)
    (day : Int) :
    let y := 400 * cycle + 100 * century + 4 * leap + year
    dayOf (if month < 10 then y else y + 1) (if month < 10 then month + 3 else month - 9) day =
      146097 * cycle + 36524 * century + 1461 * leap + 365 * year + (153 * month + 2) / 5 + day -
        719469 := by
  intro y
  have hfour : y / 4 = 100 * cycle + 25 * century + leap := by omega
  have hhundred : y / 100 = 4 * cycle + century := by omega
  have hcycle : y / 400 = cycle := by omega
  unfold dayOf
  by_cases hend : month < 10
  · simp only [if_pos hend, if_neg (show ¬ month + 3 ≤ 2 by omega), hfour, hhundred, hcycle]
    rw [show month + 3 - 3 = month by omega]
    omega
  · simp only [if_neg hend, if_pos (show month - 9 ≤ 2 by omega)]
    rw [show month - 9 + 9 = month by omega, show y + 1 - 1 = y by omega, hfour, hhundred, hcycle]
    omega

/-- A date is that of its day, and its month and day are ones. -/
theorem dayOf_dateOf (z : Int) : dayOf (dateOf z).1 (dateOf z).2.1 (dateOf z).2.2 = z ∧
    (1 ≤ (dateOf z).2.1 ∧ (dateOf z).2.1 ≤ 12) ∧ 1 ≤ (dateOf z).2.2 ∧ (dateOf z).2.2 ≤ 31 := by
  unfold dateOf
  dsimp only
  have hcycle : 0 ≤ (z + 719468) % 146097 ∧ (z + 719468) % 146097 < 146097 := by omega
  have hz : z + 719468 = 146097 * ((z + 719468) / 146097) + (z + 719468) % 146097 := by omega
  generalize (z + 719468) % 146097 = dayOfCycle at hcycle hz ⊢
  generalize (z + 719468) / 146097 = cycle at hz ⊢
  have hcentury : 0 ≤ min (dayOfCycle / 36524) 3 ∧ min (dayOfCycle / 36524) 3 ≤ 3 ∧
      0 ≤ dayOfCycle - 36524 * min (dayOfCycle / 36524) 3 ∧
      dayOfCycle - 36524 * min (dayOfCycle / 36524) 3 ≤ 36524 := by omega
  generalize min (dayOfCycle / 36524) 3 = century at hcentury ⊢
  have hleap : 0 ≤ (dayOfCycle - 36524 * century) / 1461 ∧
      (dayOfCycle - 36524 * century) / 1461 ≤ 24 := by omega
  have hrest : 0 ≤ dayOfCycle - 36524 * century - 1461 * ((dayOfCycle - 36524 * century) / 1461) ∧
      dayOfCycle - 36524 * century - 1461 * ((dayOfCycle - 36524 * century) / 1461) ≤ 1460 := by
    omega
  generalize (dayOfCycle - 36524 * century) / 1461 = leap at hleap hrest ⊢
  generalize hdayOfLeap : dayOfCycle - 36524 * century - 1461 * leap = dayOfLeap at hrest ⊢
  have hyear : 0 ≤ min (dayOfLeap / 365) 3 ∧ min (dayOfLeap / 365) 3 ≤ 3 ∧
      0 ≤ dayOfLeap - 365 * min (dayOfLeap / 365) 3 ∧
      dayOfLeap - 365 * min (dayOfLeap / 365) 3 ≤ 365 := by omega
  generalize min (dayOfLeap / 365) 3 = year at hyear ⊢
  have hmonth : 0 ≤ (5 * (dayOfLeap - 365 * year) + 2) / 153 ∧
      (5 * (dayOfLeap - 365 * year) + 2) / 153 ≤ 11 := by omega
  rw [dayOf_eq ⟨hcentury.1, hcentury.2.1⟩ hleap ⟨hyear.1, hyear.2.1⟩ hmonth]
  refine ⟨by omega, ?_, ?_⟩
  · split <;> omega
  · omega

theorem dateUTC_partsOf (wall : Int) : dateUTC (partsOf wall) + wall % 1000 = wall := by
  have hday := (dayOf_dateOf (wall / 86400000)).1
  simp only [dateUTC, partsOf, hday]
  omega

-- ---
-- Parsing
-- ---

def digits? (text : Text) : Option Int :=
  if text ≠ [] ∧ text.all Char.isDigit then
    some (text.foldl (fun n c => 10 * n + (c.toNat - 48 : Nat)) 0)
  else none

/-- The seconds and their fraction, which may be missing. -/
def parseSeconds : Text → Option (Int × Int)
  | [] => some (0, 0)
  | [':', a, b] => (digits? [a, b]).map (·, 0)
  | ':' :: a :: b :: '.' :: fraction =>
    if (digits? fraction).isNone then none
    else do
      let second ← digits? [a, b]
      let millisecond ← digits? ((fraction ++ ['0', '0', '0']).take 3)
      some (second, millisecond)
  | _ => none

def parseOffsetlessIsoDateTimeParts (raw : Text) : Option OffsetlessIsoDateTimeParts :=
  let field (start size : Nat) := digits? ((raw.drop start).take size)
  if [4, 7, 10, 13].map (raw[·]?) ≠ [some '-', some '-', some 'T', some ':'] ∨ raw.length < 16 then
    none
  else do
    let year ← field 0 4
    let month ← field 5 2
    let day ← field 8 2
    let hour ← field 11 2
    let minute ← field 14 2
    let (second, millisecond) ← parseSeconds (raw.drop 16)
    some { year, month, day, hour, minute, second, millisecond }

/-- `new Date(raw + "Z").getTime()`, of a day up to 31 in any month. -/
def naiveMs? (p : OffsetlessIsoDateTimeParts) : Option Int :=
  if (1 ≤ p.month ∧ p.month ≤ 12) ∧ (1 ≤ p.day ∧ p.day ≤ 31) ∧ p.minute ≤ 59 ∧ p.second ≤ 59 ∧
      (p.hour ≤ 23 ∨ p.hour = 24 ∧ p.minute = 0 ∧ p.second = 0 ∧ p.millisecond = 0) then
    some (dateUTC p + p.millisecond)
  else none

/-- A time zone: offsets in whole seconds, which change once at most within two days. -/
structure TimeZone where
  offset : Int → Int
  within : ∀ t, -86400 < offset t ∧ offset t < 86400
  changes : ∀ t, ∃ change before after, ∀ u, t - 86400000 < u → u < t + 86400000 →
    offset u = if u < change then before else after

variable {z : TimeZone} {raw : Text} {expected : OffsetlessIsoDateTimeParts} {n t : Int}

def getZonedDateTimeParts (z : TimeZone) (utcMs : Int) : OffsetlessIsoDateTimeParts :=
  { partsOf (utcMs + 1000 * z.offset utcMs) with millisecond := utcMs % 1000 }

def getTimeZoneOffsetMs (z : TimeZone) (utcMs : Int) : Int :=
  dateUTC (getZonedDateTimeParts z utcMs) - utcMs

def parseOffsetlessIsoDateTimeInTimeZone (raw : Text) (z : TimeZone) : Option Int := do
  let expectedParts ← parseOffsetlessIsoDateTimeParts raw
  let naiveMs ← naiveMs? expectedParts
  let firstOffsetMs := getTimeZoneOffsetMs z naiveMs
  let candidateMs := naiveMs - firstOffsetMs
  let finalOffsetMs := getTimeZoneOffsetMs z candidateMs
  let resolvedMs := naiveMs - finalOffsetMs
  if getZonedDateTimeParts z resolvedMs = expectedParts then some resolvedMs else none

-- ---
-- Readings
-- ---

theorem getZonedDateTimeParts_eq (z : TimeZone) (t : Int) :
    getZonedDateTimeParts z t = partsOf (t + 1000 * z.offset t) := by
  have hms : t % 1000 = (t + 1000 * z.offset t) % 1000 := by omega
  rw [getZonedDateTimeParts, hms]
  rfl

theorem getTimeZoneOffsetMs_eq (z : TimeZone) (t : Int) :
    getTimeZoneOffsetMs z t = 1000 * z.offset t - t % 1000 := by
  have hutc := dateUTC_partsOf (t + 1000 * z.offset t)
  rw [getTimeZoneOffsetMs, getZonedDateTimeParts_eq]
  omega

theorem partsOf_inj {w w' : Int} (h : partsOf w = partsOf w') : w = w' := by
  have hms : w % 1000 = w' % 1000 := congrArg OffsetlessIsoDateTimeParts.millisecond h
  rw [← dateUTC_partsOf w, ← dateUTC_partsOf w', h, hms]

theorem naiveMs?_partsOf (w : Int) : naiveMs? (partsOf w) = some w := by
  obtain ⟨-, hmonth, hday⟩ := dayOf_dateOf (w / 86400000)
  rw [naiveMs?, if_pos]
  · exact congrArg some (dateUTC_partsOf w)
  · refine ⟨hmonth, hday, ?_, ?_, .inl ?_⟩ <;> simp only [partsOf] <;> omega

/-- The second guess reads as written only where the milliseconds were lost twice or not at
all. -/
theorem parse_isSome_iff (h : parseOffsetlessIsoDateTimeParts raw = some (partsOf n)) :
    (parseOffsetlessIsoDateTimeInTimeZone raw z).isSome = true ↔
      2 * n % 1000 = 0 ∧
        z.offset (n - 1000 * z.offset (n - 1000 * z.offset n + n % 1000)) =
          z.offset (n - 1000 * z.offset n + n % 1000) := by
  have hguess : n - (1000 * z.offset n - n % 1000) = n - 1000 * z.offset n + n % 1000 := by omega
  simp only [parseOffsetlessIsoDateTimeInTimeZone, h, naiveMs?_partsOf, Option.bind_eq_bind,
    Option.bind_some, getTimeZoneOffsetMs_eq, getZonedDateTimeParts_eq, hguess]
  have htwice : 2 * n % 1000 = (n - 1000 * z.offset n + n % 1000) % 1000 := by omega
  rw [htwice]
  generalize n - 1000 * z.offset n + n % 1000 = guess
  have hreads (r : Int) : partsOf (r + 1000 * z.offset r) = partsOf n ↔ r + 1000 * z.offset r = n :=
    ⟨partsOf_inj, congrArg partsOf⟩
  rw [Option.isSome_ite, hreads]
  by_cases hwhole : guess % 1000 = 0
  · rw [hwhole, Int.sub_zero]
    omega
  · constructor <;> intro h <;> omega

theorem exists_guess (z : TimeZone) (n : Int) : ∃ change before after, ∀ o d, -86400 < o →
    o < 86400 → 0 ≤ d → d < 1000 → z.offset (n - 1000 * o + d) =
      if n - 1000 * o + d < change then before else after := by
  obtain ⟨change, before, after, hchange⟩ := z.changes n
  exact ⟨change, before, after, fun o d _ _ _ _ => hchange _ (by omega) (by omega)⟩

/-- The offset changes within half a second after the first guess, and the time comes at no
instant behind that change. -/
def Late (z : TimeZone) (n : Int) : Prop :=
  let first := n - 1000 * z.offset n
  z.offset (first + 500) ≠ z.offset first ∧
    ∀ t, t + 1000 * z.offset t = n → z.offset t = z.offset first

/-- With whole seconds two guesses suffice. -/
theorem second_guess (ht : t + 1000 * z.offset t = n) :
    z.offset (n - 1000 * z.offset (n - 1000 * z.offset n)) = z.offset (n - 1000 * z.offset n) := by
  obtain ⟨change, before, after, hchange⟩ := exists_guess z n
  have hoffset (u : Int) := hchange (z.offset u) 0 (z.within u).1 (z.within u).2 le_rfl (by decide)
  simp only [Int.add_zero] at hoffset
  have hnaive := hchange 0 0 (by decide) (by decide) le_rfl (by decide)
  have hfirst := hoffset n
  have hsecond := hoffset (n - 1000 * z.offset n)
  have htrue := hoffset t
  rw [show n - 1000 * z.offset t = t by omega] at htrue
  simp only [Int.mul_zero, Int.sub_zero, Int.add_zero] at hnaive
  split_ifs at hnaive hfirst hsecond htrue <;> omega

/-- With half seconds they do unless the zone changes between them. -/
theorem second_guess_half (ht : t + 1000 * z.offset t = n) :
    z.offset (n - 1000 * z.offset (n - 1000 * z.offset n + 500)) =
      z.offset (n - 1000 * z.offset n + 500) ↔ ¬ Late z n := by
  constructor
  · rintro hsecond ⟨hne, hall⟩
    have hread := hall _ (by rw [hsecond, Int.sub_add_cancel])
    exact hne (hsecond.symm.trans hread)
  · intro hlate
    by_contra hsecond
    obtain ⟨change, before, after, hchange⟩ := exists_guess z n
    have hoffset (u : Int) :=
      hchange (z.offset u) 0 (z.within u).1 (z.within u).2 le_rfl (by decide)
    simp only [Int.add_zero] at hoffset
    have hnaive := hchange 0 0 (by decide) (by decide) le_rfl (by decide)
    simp only [Int.mul_zero, Int.sub_zero, Int.add_zero] at hnaive
    have hfirst := hoffset n
    have hhalf := hchange (z.offset n) 500 (z.within n).1 (z.within n).2 (by decide) (by decide)
    have hthird := hoffset (n - 1000 * z.offset n + 500)
    have hread (t : Int) (ht : t + 1000 * z.offset t = n) :
        z.offset t = if t < change then before else after := by
      have htrue := hoffset t
      rwa [show n - 1000 * z.offset t = t by omega] at htrue
    have htrue := hread t ht
    refine hlate ⟨fun heq => ?_, fun u hu => ?_⟩
    · split_ifs at hnaive hfirst hhalf hthird htrue <;> omega
    · have hother := hread u hu
      split_ifs at hnaive hfirst hhalf hthird htrue hother <;> omega

/-- What is asked of the parser: an instant at which clocks in the zone show what is written, if
there is one. -/
def Reads (z : TimeZone) (raw : Text) (expected : OffsetlessIsoDateTimeParts) : Prop :=
  (∀ t, parseOffsetlessIsoDateTimeInTimeZone raw z = some t →
      getZonedDateTimeParts z t = expected) ∧
    (parseOffsetlessIsoDateTimeInTimeZone raw z = none → ∀ t, getZonedDateTimeParts z t ≠ expected)

/-- The parser reads a time of whole seconds, and one that never comes; and a time of half a
second unless the zone changes right after it. Other fractions it never reads. -/
theorem parseOffsetless_reads_iff
    (h : parseOffsetlessIsoDateTimeParts raw = some expected) (_ : 1000 ≤ expected.year) :
    Reads z raw expected ↔ (∀ t, getZonedDateTimeParts z t ≠ expected) ∨ expected.millisecond = 0 ∨
      expected.millisecond = 500 ∧ ¬ Late z (dateUTC expected + 500) := by
  have hsound (t : Int) (ht : parseOffsetlessIsoDateTimeInTimeZone raw z = some t) :
      getZonedDateTimeParts z t = expected := by
    simp only [parseOffsetlessIsoDateTimeInTimeZone, h, Option.bind_eq_bind, Option.bind_some,
      Option.bind_eq_some_iff, Option.ite_none_right_eq_some] at ht
    obtain ⟨naive, -, hreads, heq⟩ := ht
    exact Option.some.inj heq ▸ hreads
  by_cases hnever : ∀ t, getZonedDateTimeParts z t ≠ expected
  · exact ⟨fun _ => .inl hnever, fun _ => ⟨hsound, fun _ => hnever⟩⟩
  · obtain ⟨t, ht⟩ := not_forall_not.1 hnever
    rw [getZonedDateTimeParts_eq] at ht
    subst ht
    have hreads : Reads z raw (partsOf (t + 1000 * z.offset t)) ↔
        (parseOffsetlessIsoDateTimeInTimeZone raw z).isSome = true := by
      rw [Option.isSome_iff_ne_none]
      refine ⟨fun hreads hnone => ?_, fun hsome => ⟨hsound, fun hnone => absurd hnone hsome⟩⟩
      exact hreads.2 hnone t (getZonedDateTimeParts_eq z t)
    rw [hreads, parse_isSome_iff h, or_iff_right hnever]
    have hms : (partsOf (t + 1000 * z.offset t)).millisecond = (t + 1000 * z.offset t) % 1000 := rfl
    have hutc := dateUTC_partsOf (t + 1000 * z.offset t)
    rw [hms]
    generalize hn : t + 1000 * z.offset t = n at hutc ⊢
    rcases (show n % 1000 = 0 ∨ n % 1000 = 500 ∨ 2 * n % 1000 ≠ 0 by omega) with hms | hms | hms
    · rw [hms, Int.add_zero]
      exact ⟨fun _ => .inl rfl, fun _ => ⟨by omega, second_guess hn⟩⟩
    · rw [hms, show dateUTC (partsOf n) + 500 = n by omega, second_guess_half hn]
      exact ⟨fun hlate => .inr ⟨rfl, hlate.2⟩, fun hlate => ⟨by omega, by simpa using hlate⟩⟩
    · exact ⟨fun hboth => absurd hboth.1 hms, fun hboth => by omega⟩

def utc : TimeZone where
  offset _ := 0
  within _ := by decide
  changes _ := ⟨0, 0, 0, fun _ _ _ => (ite_self 0).symm⟩

theorem parseOffsetless_reads_minutes :
    Reads utc "2024-02-29T12:30".toList ⟨2024, 2, 29, 12, 30, 0, 0⟩ :=
  (parseOffsetless_reads_iff rfl (by decide)).2 (.inr (.inl rfl))

/-- A quarter of a second past midnight is not read, in UTC either. -/
theorem not_parseOffsetless_reads : ¬ ∀ (z : TimeZone) (raw : Text)
    (expected : OffsetlessIsoDateTimeParts), parseOffsetlessIsoDateTimeParts raw = some expected →
      1000 ≤ expected.year → Reads z raw expected := by
  intro h
  have hread := h utc "2024-01-01T00:00:00.250".toList ⟨2024, 1, 1, 0, 0, 0, 250⟩ rfl (by decide)
  exact hread.2 (by decide +kernel) 1704067200250 (by decide +kernel)

end OpenClaw.FormatTime
