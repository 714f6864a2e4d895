import Peinit.Lib.OrdMap
import Peinit.Timer.Calendar

/-!
# Calendar expressions

An expression has up to four parts, weekdays, a date, a time and a time zone, told apart by their
shape.  Each field of a part is a list of numbers, ranges and steps, or `*`.
-/

namespace Peinit

open Peinit.NumberField Std.ExtTreeSet OrdSet

variable {start min max : ℕ} {values : OrdSet ℕ} {text : List Char} {α : Type}
  {looksLike : List Char → Bool}

inductive CalendarParseError where
  | empty
  | missingSchedule
  | unknownToken (token : String)
  | tooManyParts (expression : String)
  | invalidField (field value reason : String)
  | fractionalSecondsUnsupported (value : String)
  | invalidTimezone (timezone : String)
  deriving DecidableEq

/-! ## Texts -/

namespace CalendarText

/-- The characters that separate the parts of an expression. -/
def isWhitespace (c : Char) : Bool :=
  let n := c.toNat
  9 ≤ n && n ≤ 13 || n = 32 || n = 0x85 || n = 0xA0 || n = 0x1680 || 0x2000 ≤ n && n ≤ 0x200A ||
    n = 0x2028 || n = 0x2029 || n = 0x202F || n = 0x205F || n = 0x3000

def splitWhitespace (text : List Char) : List (List Char) := (text.splitOnP isWhitespace).filter (· ≠ [])

def trim (text : List Char) : List Char :=
  ((text.dropWhile isWhitespace).reverse.dropWhile isWhitespace).reverse

/-- What is before and after the first `separator`. -/
def splitOnce (separator : List Char) : List Char → Option (List Char × List Char)
  | [] => none
  | c :: rest =>
    if separator.isPrefixOf (c :: rest) then some ([], (c :: rest).drop separator.length)
    else (splitOnce separator rest).map fun halves => (c :: halves.1, halves.2)

/-- What is before and after the last `separator`. -/
def rsplitOnce (separator text : List Char) : Option (List Char × List Char) :=
  (splitOnce separator.reverse text.reverse).map fun halves =>
    (halves.2.reverse, halves.1.reverse)

/-- The pieces between the range operators. -/
def splitRange : List Char → List (List Char)
  | [] => [[]]
  | '.' :: '.' :: rest => [] :: splitRange rest
  | c :: rest =>
    match splitRange rest with
    | piece :: pieces => (c :: piece) :: pieces
    | [] => [[c]]

/-- A number of sixteen bits, with a sign if it is plus. -/
def parseU16 (text : List Char) : Option ℕ :=
  let digits := match text with
    | '+' :: rest => rest
    | _ => text
  if digits = [] || !digits.all Char.isDigit then none
  else
    let value := digits.foldl (fun value digit => value * 10 + (digit.toNat - '0'.toNat)) 0
    if value < 2 ^ 16 then some value else none

end CalendarText

open CalendarText

/-! ## Fields -/

def NumberField.ofSet (set : OrdSet ℕ) : NumberField where
  values := set.toList
  ascending := by
    have ordered := set.ordered_toList
    simpa only [compare_lt_iff_lt] using ordered

/-- The walk from `value` up to `stop`; no more values than `fuel` are inserted. -/
def ascend (step stop : ℕ) : ℕ → ℕ → OrdSet ℕ → OrdSet ℕ
  | 0, _, values => values
  | fuel + 1, value, values =>
    if value ≤ stop then
      if value + step < 2 ^ 16 then ascend step stop fuel (value + step) (values.insert value)
      else values.insert value
    else values

def insertAscending (start stop step : ℕ) (values : OrdSet ℕ) : OrdSet ℕ :=
  ascend step stop (stop + 1 - start) start values

/-- The walk from `value` down to `stop`. -/
def descend (step stop : ℕ) : ℕ → ℕ → OrdSet ℕ → OrdSet ℕ
  | 0, _, values => values
  | fuel + 1, value, values =>
    if stop ≤ value then
      if value < stop + step then values.insert value
      else descend step stop fuel (value - step) (values.insert value)
    else values

def insertDescending (start stop step : ℕ) (values : OrdSet ℕ) : OrdSet ℕ :=
  descend step stop (start + 1 - stop) start values

section Field

variable (field : String) (whole : List Char)

def fieldError (reason : String) : CalendarParseError :=
  .invalidField field (String.ofList whole) reason

/-- The part before the step, and the step if there is one. -/
def splitStep (text : List Char) : Except CalendarParseError (List Char × Option ℕ) :=
  match splitOnce ['/'] text with
  | none => .ok (text, none)
  | some (base, step) =>
    if base = [] || step = [] || step.contains '/' then
      .error (fieldError field whole "invalid repetition syntax")
    else match parseU16 step with
      | none => .error (fieldError field whole "invalid step")
      | some step =>
        if step = 0 then .error (fieldError field whole "step must be greater than zero")
        else .ok (base, some step)

/-- The first and the last value, and whether they were given as one. -/
def parseBounds (number : List Char → Except CalendarParseError ℕ) (min max : ℕ)
    (base : List Char) : Except CalendarParseError (ℕ × ℕ × Bool) :=
  if base = ['*'] then .ok (min, max, false)
  else match splitOnce ['.', '.'] base with
    | some (first, last) => do
      let start ← number first
      let stop ← number last
      if stop < start then .error (fieldError field whole "range start is after range end")
      else .ok (start, stop, false)
    | none => do
      let start ← number base
      .ok (start, start, true)

def insertPart (number : List Char → Except CalendarParseError ℕ) (min max : ℕ)
    (lastDayOffsets : Bool) (values : OrdSet ℕ) (part : List Char) :
    Except CalendarParseError (OrdSet ℕ) := do
  let (base, step) ← splitStep field whole part
  let (start, stop, single) ← parseBounds field whole number min max base
  if lastDayOffsets && single && step.isSome then
    .ok (insertDescending start min (step.getD 1) values)
  else
    .ok (insertAscending start (if single && step.isSome then max else stop) (step.getD 1) values)

def parseList (number : List Char → Except CalendarParseError ℕ) (min max : ℕ)
    (lastDayOffsets : Bool) : Except CalendarParseError (OrdSet ℕ) :=
  if whole = [] then .error (fieldError field whole "field is empty")
  else (whole.splitOn ',').foldlM (fun values part =>
    if part = [] then .error (fieldError field whole "list contains an empty item")
    else insertPart field whole number min max lastDayOffsets values part) ∅

def parseNumber (min max : ℕ) (text : List Char) : Except CalendarParseError ℕ :=
  if text = [] then .error (fieldError field whole "number is empty")
  else match parseU16 text with
    | none => .error (fieldError field whole "invalid number")
    | some value =>
      if value < min || max < value then .error (fieldError field whole "number is out of range")
      else .ok value

def parseValues (min max : ℕ) (lastDayOffsets : Bool) : Except CalendarParseError (OrdSet ℕ) :=
  parseList field whole (parseNumber field whole min max) min max lastDayOffsets

def parseWeekdayName (text : List Char) : Except CalendarParseError ℕ :=
  match String.ofList (text.map Char.toLower) with
  | "mon" | "monday" => .ok 1
  | "tue" | "tues" | "tuesday" => .ok 2
  | "wed" | "wednesday" => .ok 3
  | "thu" | "thur" | "thurs" | "thursday" => .ok 4
  | "fri" | "friday" => .ok 5
  | "sat" | "saturday" => .ok 6
  | "sun" | "sunday" => .ok 7
  | _ => .error (fieldError field whole "unknown weekday name")

end Field

def NumberField.any (min max : ℕ) : NumberField := .ofSet (insertAscending min max 1 ∅)

def NumberField.parse (field : String) (text : List Char) (min max : ℕ) :
    Except CalendarParseError NumberField := do
  let values ← parseValues field text min max false
  return .ofSet values

def parseWeekdayField (text : List Char) : Except CalendarParseError NumberField := do
  let values ← parseList "weekday" text (parseWeekdayName "weekday" text) 1 7 false
  return .ofSet values

def DayField.any : DayField := .monthDay (.any 1 31)

def DayField.parse (text : List Char) : Except CalendarParseError DayField :=
  match text with
  | '~' :: offsets =>
    if offsets = [] then .error (fieldError "day" text "last-day offset is empty")
    else do
      let values ← parseValues "day" offsets 1 31 true
      return .lastDay (.ofSet values)
  | _ => do
    let days ← NumberField.parse "day" text 1 31
    return .monthDay days

/-! ## Parts -/

structure DateFields where
  years : NumberField
  months : NumberField
  days : DayField

def DateFields.any : DateFields where
  years := .any 0 9999
  months := .any 1 12
  days := .any

/-- The month, and the day with a mark if it is counted from the end of the month. -/
def splitMonthDay (rest : List Char) : Option (List Char × List Char) :=
  match splitOnce ['~'] rest with
  | some (month, day) =>
    some (if month.getLast? = some '-' then month.dropLast else month, '~' :: day)
  | none => rsplitOnce ['-'] rest

def parseDate (text : List Char) : Except CalendarParseError DateFields :=
  match splitOnce ['-'] text with
  | none => .error (.unknownToken (String.ofList text))
  | some (year, rest) =>
    match splitMonthDay rest with
    | none => .error (fieldError "date" text "date must contain year, month and day")
    | some (month, day) => do
      let years ← NumberField.parse "year" year 0 9999
      let months ← NumberField.parse "month" month 1 12
      let days ← DayField.parse day
      return { years, months, days }

structure TimeFields where
  hours : NumberField
  minutes : NumberField
  seconds : NumberField

def parseTimeFields (hour minute second : List Char) : Except CalendarParseError TimeFields := do
  let hours ← NumberField.parse "hour" hour 0 23
  let minutes ← NumberField.parse "minute" minute 0 59
  let seconds ← NumberField.parse "second" second 0 59
  return { hours, minutes, seconds }

def TimeFields.midnight : Except CalendarParseError TimeFields := parseTimeFields ['0'] ['0'] ['0']

/-- A dot that is not part of a range operator is a fraction. -/
def hasFraction (field : List Char) : Bool :=
  (splitRange field).any fun number => (number.splitOn '/').any (·.contains '.')

def parseTime (text : List Char) : Except CalendarParseError TimeFields :=
  let parts := text.splitOn ':'
  if parts.any hasFraction then .error (.fractionalSecondsUnsupported (String.ofList text))
  else match parts with
    | [hour, minute] => parseTimeFields hour minute ['0']
    | [hour, minute, second] => parseTimeFields hour minute second
    | _ => .error (fieldError "time" text "time must contain hour:minute or hour:minute:second")

def shortcutExpression (shortcut : List Char) : Option String :=
  match String.ofList (shortcut.map Char.toLower) with
  | "minutely" => some "*-*-* *:*:00"
  | "hourly" => some "*-*-* *:00:00"
  | "daily" => some "*-*-* 00:00:00"
  | "weekly" => some "Mon *-*-* 00:00:00"
  | "monthly" => some "*-*-01 00:00:00"
  | "quarterly" => some "*-01,04,07,10-01 00:00:00"
  | "semiannually" => some "*-01,07-01 00:00:00"
  | "annually" | "yearly" => some "*-01-01 00:00:00"
  | _ => none

/-- The expression a shortcut stands for, and whether it was one. -/
def expandShortcut (text : List Char) : List Char × Bool :=
  match splitWhitespace text with
  | [] => (text, false)
  | first :: rest =>
    match shortcutExpression first, rest with
    | some expanded, [] => (expanded.toList, true)
    | some expanded, [timezone] => (expanded.toList ++ ' ' :: timezone, true)
    | _, _ => (text, false)

def looksLikeWeekday (token : List Char) : Bool :=
  token = ['*'] || (parseWeekdayField token).toOption.isSome

def looksLikeDate (token : List Char) : Bool := token.contains '-' || token.contains '~'

def looksLikeTime (token : List Char) : Bool :=
  token.contains ':' && token.head?.any fun c => c.isDigit || c = '*'

/-- Take the next part if it has the shape; the parts that are left, and whether it was there. -/
def takePart {α : Type} (looksLike : List Char → Bool)
    (parse : List Char → Except CalendarParseError α) (absent : Except CalendarParseError α)
    (tokens : List (List Char)) : Except CalendarParseError (α × List (List Char) × Bool) :=
  match tokens with
  | [] => do
    let value ← absent
    return (value, [], false)
  | token :: rest =>
    if looksLike token then do
      let value ← parse token
      return (value, rest, true)
    else do
      let value ← absent
      return (value, tokens, false)

def validateTimezone (zones : TimeZones) (timezone : List Char) :
    Except CalendarParseError String :=
  if (zones (some (String.ofList timezone))).isSome then .ok (String.ofList timezone)
  else .error (.invalidTimezone (String.ofList timezone))

namespace CalendarSchedule

def parseTokens (zones : TimeZones) (expression : List Char) (fromShortcut : Bool)
    (tokens : List (List Char)) : Except CalendarParseError CalendarSchedule := do
  let weekdays ← takePart looksLikeWeekday parseWeekdayField (.ok (.any 1 7)) tokens
  let date ← takePart looksLikeDate parseDate (.ok .any) weekdays.2.1
  let time ← takePart looksLikeTime parseTime TimeFields.midnight date.2.1
  let timezone ← takePart (fun _ => true) (fun token => (validateTimezone zones token).map some)
    (.ok none) time.2.1
  let schedule : CalendarSchedule :=
    { weekdays := weekdays.1
      years := date.1.years
      months := date.1.months
      days := date.1.days
      hours := time.1.hours
      minutes := time.1.minutes
      seconds := time.1.seconds
      timezone := timezone.1 }
  if timezone.2.1 ≠ [] then .error (.tooManyParts (String.ofList expression))
  else if !(fromShortcut || weekdays.2.2 || date.2.2 || time.2.2) then .error .missingSchedule
  else .ok schedule

def parse (zones : TimeZones) (expression : String) :
    Except CalendarParseError CalendarSchedule :=
  let trimmed := trim expression.toList
  if trimmed = [] then .error .empty
  else
    let (text, fromShortcut) := expandShortcut trimmed
    let tokens := splitWhitespace text
    if tokens = [] then .error .empty
    else parseTokens zones text fromShortcut tokens

end CalendarSchedule

/-! ## What is accepted -/

section Walks

variable {step stop fuel value v : ℕ}

theorem mem_ascend (mem : v ∈ ascend step stop fuel value values) :
    v ∈ values ∨ value ≤ v ∧ v ≤ stop := by
  induction fuel generalizing value values with
  | zero => exact .inl mem
  | succ fuel ih =>
    rw [ascend] at mem
    split_ifs at mem with inside
    · rcases ih mem with earlier | ⟨low, high⟩
      · rcases (mem_insert _ _ _).mp earlier with rfl | old
        · exact .inr ⟨le_refl _, inside⟩
        · exact .inl old
      · exact .inr ⟨by omega, high⟩
    · rcases (mem_insert _ _ _).mp mem with rfl | old
      · exact .inr ⟨le_refl _, inside⟩
      · exact .inl old
    · exact .inl mem

theorem mem_ascend_of_mem (mem : v ∈ values) : v ∈ ascend step stop fuel value values := by
  induction fuel generalizing value values with
  | zero => exact mem
  | succ fuel ih =>
    have kept : v ∈ values.insert value := (mem_insert _ _ _).mpr (.inr mem)
    rw [ascend]
    split_ifs
    · exact ih kept
    · exact kept
    · exact mem

theorem start_mem_insertAscending (ordered : start ≤ stop) :
    start ∈ insertAscending start stop step values := by
  have first : start ∈ values.insert start := (mem_insert _ _ _).mpr (.inl rfl)
  obtain ⟨fuel, enough⟩ : ∃ fuel, stop + 1 - start = fuel + 1 := ⟨stop - start, by omega⟩
  rw [insertAscending, enough, ascend]
  split_ifs
  · exact mem_ascend_of_mem first
  · exact first

theorem mem_ascend_one (small : stop < 2 ^ 16) (enough : stop < value + fuel) (low : value ≤ v)
    (high : v ≤ stop) : v ∈ ascend 1 stop fuel value values := by
  induction fuel generalizing value values with
  | zero => omega
  | succ fuel ih =>
    have here : value ∈ values.insert value := (mem_insert _ _ _).mpr (.inl rfl)
    rw [ascend, if_pos (by omega)]
    split_ifs with more
    · rcases Nat.eq_or_lt_of_le low with rfl | above
      · exact mem_ascend_of_mem here
      · exact ih (by omega) (by omega)
    · obtain rfl : value = v := by omega
      exact here

theorem mem_descend (mem : v ∈ descend step stop fuel value values) :
    v ∈ values ∨ stop ≤ v ∧ v ≤ value := by
  induction fuel generalizing value values with
  | zero => exact .inl mem
  | succ fuel ih =>
    rw [descend] at mem
    split_ifs at mem with inside last
    · rcases (mem_insert _ _ _).mp mem with rfl | old
      · exact .inr ⟨inside, le_refl _⟩
      · exact .inl old
    · rcases ih mem with earlier | ⟨low, high⟩
      · rcases (mem_insert _ _ _).mp earlier with rfl | old
        · exact .inr ⟨inside, le_refl _⟩
        · exact .inl old
      · exact .inr ⟨low, by omega⟩
    · exact .inl mem

theorem mem_descend_of_mem (mem : v ∈ values) : v ∈ descend step stop fuel value values := by
  induction fuel generalizing value values with
  | zero => exact mem
  | succ fuel ih =>
    have kept : v ∈ values.insert value := (mem_insert _ _ _).mpr (.inr mem)
    rw [descend]
    split_ifs
    · exact kept
    · exact ih kept
    · exact mem

theorem start_mem_insertDescending (ordered : stop ≤ start) :
    start ∈ insertDescending start stop step values := by
  have first : start ∈ values.insert start := (mem_insert _ _ _).mpr (.inl rfl)
  obtain ⟨fuel, enough⟩ : ∃ fuel, start + 1 - stop = fuel + 1 := ⟨start - stop, by omega⟩
  rw [insertDescending, enough, descend]
  split_ifs
  · exact first
  · exact mem_descend_of_mem first

end Walks

section Lists

variable {field : String} {whole : List Char} {number : List Char → Except CalendarParseError ℕ}
  {lastDayOffsets : Bool}

theorem parseBounds_ok (inRange : ∀ text value, number text = .ok value → min ≤ value ∧ value ≤ max)
    (proper : min ≤ max) {base : List Char} {bounds : ℕ × ℕ × Bool}
    (ran : parseBounds field whole number min max base = .ok bounds) :
    min ≤ bounds.1 ∧ bounds.1 ≤ bounds.2.1 ∧ bounds.2.1 ≤ max := by
  unfold parseBounds at ran
  split_ifs at ran
  · cases ran
    exact ⟨le_refl _, proper, le_refl _⟩
  · split at ran
    · obtain ⟨start, first, ran⟩ := bind_eq_ok.mp ran
      obtain ⟨stop, last, ran⟩ := bind_eq_ok.mp ran
      split_ifs at ran with reversed
      cases ran
      exact ⟨(inRange _ _ first).1, not_lt.mp reversed, (inRange _ _ last).2⟩
    · obtain ⟨start, only, ran⟩ := bind_eq_ok.mp ran
      cases ran
      exact ⟨(inRange _ _ only).1, le_refl _, (inRange _ _ only).2⟩

theorem insertPart_ok (inRange : ∀ text value, number text = .ok value → min ≤ value ∧ value ≤ max)
    (proper : min ≤ max) {after : OrdSet ℕ} {part : List Char}
    (ran : insertPart field whole number min max lastDayOffsets values part = .ok after) :
    (∀ v ∈ after, v ∈ values ∨ min ≤ v ∧ v ≤ max) ∧ ∃ v, v ∈ after := by
  obtain ⟨⟨base, step⟩, -, ran⟩ := bind_eq_ok.mp ran
  obtain ⟨⟨start, stop, single⟩, bounds, ran⟩ := bind_eq_ok.mp ran
  obtain ⟨low, ordered, high⟩ := parseBounds_ok inRange proper bounds
  dsimp only at ran low ordered high
  split_ifs at ran
  · cases ran
    refine ⟨fun v mem => ?_, start, start_mem_insertDescending low⟩
    exact (mem_descend mem).imp_right fun ⟨above, below⟩ => ⟨above, by omega⟩
  · cases ran
    refine ⟨fun v mem => ?_, start, start_mem_insertAscending (by omega)⟩
    exact (mem_ascend mem).imp_right fun ⟨above, below⟩ => ⟨by omega, below⟩
  · cases ran
    refine ⟨fun v mem => ?_, start, start_mem_insertAscending ordered⟩
    exact (mem_ascend mem).imp_right fun ⟨above, below⟩ => ⟨by omega, by omega⟩

theorem parseList_ok (inRange : ∀ text value, number text = .ok value → min ≤ value ∧ value ≤ max)
    (proper : min ≤ max) (ran : parseList field whole number min max lastDayOffsets = .ok values) :
    (∀ v ∈ values, min ≤ v ∧ v ≤ max) ∧ ∃ v, v ∈ values := by
  unfold parseList at ran
  split_ifs at ran
  -- the first item makes the set one of the range, and the others keep it so
  cases parts : whole.splitOn ',' with
  | nil => exact absurd parts (List.splitOn_ne_nil _ _)
  | cons part parts =>
    have step : ∀ part, ∀ before after : OrdSet ℕ, (∀ v ∈ before, min ≤ v ∧ v ≤ max) →
        (if part = [] then .error (fieldError field whole "list contains an empty item")
          else insertPart field whole number min max lastDayOffsets before part) = .ok after →
        (∀ v ∈ after, min ≤ v ∧ v ≤ max) ∧ ∃ v, v ∈ after := by
      intro part before after within ran
      split_ifs at ran
      obtain ⟨added, some_⟩ := insertPart_ok inRange proper ran
      exact ⟨fun v mem => (added v mem).elim (within v) id, some_⟩
    rw [parts] at ran
    obtain ⟨first, ran₁, rest⟩ := bind_eq_ok.mp ran
    refine foldlM_invariant (fun values : OrdSet ℕ =>
      (∀ v ∈ values, min ≤ v ∧ v ≤ max) ∧ ∃ v, v ∈ values)
      (fun part _ before after inv ran => step part before after inv.1 ran)
      (step part ∅ first (fun v mem => absurd mem not_mem_empty) ran₁) rest

end Lists

theorem parseNumber_ok {field : String} {whole : List Char} (text : List Char)
    (value : ℕ) (ran : parseNumber field whole min max text = .ok value) :
    min ≤ value ∧ value ≤ max := by
  unfold parseNumber at ran
  split_ifs at ran
  split at ran
  · cases ran
  · split_ifs at ran with outside
    cases ran
    simp only [Bool.or_eq_true, decide_eq_true_eq, not_or, not_lt] at outside
    exact outside

/-- Every value is in the range, and there is one. -/
structure NumberField.Within (field : NumberField) (min max : ℕ) : Prop where
  bounds : ∀ v ∈ field.values, min ≤ v ∧ v ≤ max
  nonempty : field.values ≠ []

theorem NumberField.within_parse {name : String} {field : NumberField} (proper : min ≤ max)
    (ran : parse name text min max = .ok field) : field.Within min max := by
  obtain ⟨values, first, rest⟩ := bind_eq_ok.mp ran
  cases rest
  obtain ⟨bounds, v, mem⟩ := parseList_ok parseNumber_ok proper first
  refine ⟨fun v mem => bounds v (mem_toList.mp mem), ?_⟩
  exact List.ne_nil_of_mem (mem_toList.mpr mem)

theorem NumberField.within_any (proper : min ≤ max) : (any min max).Within min max := by
  refine ⟨fun v mem => ?_, ?_⟩
  · rcases mem_ascend (mem_toList.mp mem) with empty | bounds
    · exact absurd empty not_mem_empty
    · exact bounds
  · exact List.ne_nil_of_mem (mem_toList.mpr (start_mem_insertAscending proper))

theorem NumberField.mem_any {v : ℕ} (small : max < 2 ^ 16) (low : min ≤ v) (high : v ≤ max) :
    v ∈ (any min max).values :=
  mem_toList.mpr (mem_ascend_one small (by omega) low high)

/-- The years of a schedule have four digits, and its times are times of day. -/
structure CalendarSchedule.InRange (schedule : CalendarSchedule) : Prop where
  years : schedule.years.Within 0 9999
  hours : schedule.hours.Within 0 23
  minutes : schedule.minutes.Within 0 59
  seconds : schedule.seconds.Within 0 59

theorem parseDate_ok {fields : DateFields} (ran : parseDate text = .ok fields) :
    fields.years.Within 0 9999 := by
  unfold parseDate at ran
  split at ran
  · cases ran
  · split at ran
    · cases ran
    · obtain ⟨years, parses, ran⟩ := bind_eq_ok.mp ran
      obtain ⟨months, -, ran⟩ := bind_eq_ok.mp ran
      obtain ⟨days, -, ran⟩ := bind_eq_ok.mp ran
      cases ran
      exact within_parse (by omega) parses

theorem parseTimeFields_ok {hour minute second : List Char} {fields : TimeFields}
    (ran : parseTimeFields hour minute second = .ok fields) :
    fields.hours.Within 0 23 ∧ fields.minutes.Within 0 59 ∧ fields.seconds.Within 0 59 := by
  obtain ⟨hours, parsesHours, ran⟩ := bind_eq_ok.mp ran
  obtain ⟨minutes, parsesMinutes, ran⟩ := bind_eq_ok.mp ran
  obtain ⟨seconds, parsesSeconds, ran⟩ := bind_eq_ok.mp ran
  cases ran
  exact ⟨within_parse (by omega) parsesHours,
    within_parse (by omega) parsesMinutes, within_parse (by omega) parsesSeconds⟩

theorem parseTime_ok {fields : TimeFields} (ran : parseTime text = .ok fields) :
    fields.hours.Within 0 23 ∧ fields.minutes.Within 0 59 ∧ fields.seconds.Within 0 59 := by
  unfold parseTime at ran
  dsimp only at ran
  split_ifs at ran
  split at ran
  · exact parseTimeFields_ok ran
  · exact parseTimeFields_ok ran
  · cases ran

theorem takePart_ok
    {parse : List Char → Except CalendarParseError α} {absent : Except CalendarParseError α}
    {tokens : List (List Char)} {out : α × List (List Char) × Bool}
    (ran : takePart looksLike parse absent tokens = .ok out) :
    (∃ token, parse token = .ok out.1) ∨ absent = .ok out.1 := by
  unfold takePart at ran
  split at ran
  · obtain ⟨value, first, rest⟩ := bind_eq_ok.mp ran
    cases rest
    exact .inr first
  · split_ifs at ran
    · obtain ⟨value, first, rest⟩ := bind_eq_ok.mp ran
      cases rest
      exact .inl ⟨_, first⟩
    · obtain ⟨value, first, rest⟩ := bind_eq_ok.mp ran
      cases rest
      exact .inr first

theorem takePart_of_looksLike
    {parse : List Char → Except CalendarParseError α} {absent : Except CalendarParseError α}
    {token : List Char} {rest : List (List Char)} {value : α} (shape : looksLike token = true)
    (parsed : parse token = .ok value) :
    takePart looksLike parse absent (token :: rest) = .ok (value, rest, true) := by
  rw [takePart, if_pos shape, parsed]
  rfl

theorem CalendarSchedule.inRange_parse {zones : TimeZones} {expression : String}
    {sched : CalendarSchedule} (ran : parse zones expression = .ok sched) :
    sched.InRange := by
  unfold parse at ran
  dsimp only at ran
  split_ifs at ran
  obtain ⟨weekdays, -, ran⟩ := bind_eq_ok.mp ran
  obtain ⟨date, takesDate, ran⟩ := bind_eq_ok.mp ran
  obtain ⟨time, takesTime, ran⟩ := bind_eq_ok.mp ran
  obtain ⟨timezone, -, ran⟩ := bind_eq_ok.mp ran
  split_ifs at ran
  cases ran
  have years : date.1.years.Within 0 9999 := by
    rcases takePart_ok takesDate with ⟨token, parsed⟩ | absent
    · exact parseDate_ok parsed
    · rw [← Except.ok.inj absent]
      exact within_any (by omega)
  have times : time.1.hours.Within 0 23 ∧ time.1.minutes.Within 0 59 ∧ time.1.seconds.Within 0 59 := by
    rcases takePart_ok takesTime with ⟨token, parsed⟩ | absent
    · exact parseTime_ok parsed
    · exact parseTimeFields_ok absent
  exact ⟨years, times.1, times.2.1, times.2.2⟩

end Peinit
