import TabFtp.ListingFields
import Mathlib.Data.List.DropRight

/-!
# Dates and times of a listing

The three parsers for dates and times.  `ParseUnixDateTime` may consume up to
four tokens and is cut into its steps: the token that starts the date, the
day, the month, and the year or the time.
-/

namespace TabFtp

open CheckedAttempts Attempt

/-- A call that sets the time of the entry and says whether it succeeds.  The
result is the time that the entry has then. -/
def changeTime (change : Option Datetime → Option Datetime × Bool) :
    Parse (Option Datetime) := do
  let entry ← getEntry
  setTime (change entry.time).1
  require (change entry.time).2
  pure (change entry.time).1

/-! ## Short dates -/

/-- What `ParseShortDate` has found so far. -/
structure DateFields where
  year : ℤ
  month : ℤ
  day : ℤ
  gotYear : Bool
  gotMonth : Bool
  gotDay : Bool
  gotMonthName : Bool

def noDateFields : DateFields := ⟨0, 0, 0, false, false, false, false⟩

def findMonth (lib : ListingLibrary) (name : WString) : Parse ℤ := do
  let month ← expect (getMonthFromName lib name)
  pure month

def firstDateField (lib : ListingLibrary) (saneFieldOrder : Bool)
    (token : Token) (pos : ℕ) : Parse DateFields :=
  if !token.isNumericIn 0 pos then do
    let dateMonth ← cut token.text 0 pos
    let month ← findMonth lib dateMonth
    pure { noDateFields with
      month := month, gotMonth := true, gotMonthName := true }
  else if pos = 4 then do
    let year ← token.numberIn 0 pos
    require (1900 ≤ year && year ≤ 3000)
    pure { noDateFields with year := year, gotYear := true }
  else if pos ≤ 2 then do
    let value ← token.numberIn 0 pos
    let delimiter ← charAt token.text pos
    if delimiter = '.' then do
      require (1 ≤ value && value ≤ 31)
      pure { noDateFields with day := value, gotDay := true }
    else if saneFieldOrder then
      pure { noDateFields with
        year := if value < 50 then value + 2000 else value + 1900,
        gotYear := true }
    else do
      require (1 ≤ value)
      if 12 < value then do
        require (value ≤ 31)
        pure { noDateFields with day := value, gotDay := true }
      else pure { noDateFields with month := value, gotMonth := true }
  else mismatch

def secondDateField (lib : ListingLibrary) (token : Token) (pos pos2 : ℕ)
    (fields : DateFields) : Parse DateFields := do
  let len := pos2 - pos - 1
  let renamed := !token.isNumericIn (pos + 1) len && fields.gotMonth
  require (!(renamed && (fields.gotMonthName || fields.gotDay)))
  -- a month in front of a month name is a day
  let fields :=
    if renamed then
      { fields with gotDay := true, gotMonth := false, day := fields.month }
    else fields
  if fields.gotYear || fields.gotDay then do
    let dateMonth ← cut token.text (pos + 1) len
    let month ← findMonth lib dateMonth
    pure { fields with month := month, gotMonth := true }
  else do
    let value ← token.numberIn (pos + 1) len
    require (1 ≤ value && value ≤ 31)
    pure { fields with day := value, gotDay := true }

def lastDateField (token : Token) (pos2 : ℕ) (fields : DateFields) :
    Parse DateFields := do
  let value ← token.numberIn (pos2 + 1) ((token.text.length : ℤ) - pos2 - 1)
  if fields.gotYear then do
    require (0 < value && value ≤ 31)
    pure { fields with day := value, gotDay := true }
  else do
    require (0 ≤ value && value ≤ 9999)
    pure { fields with
      year :=
        if value < 50 then value + 2000
        else if value < 1000 then value + 1900
        else value,
      gotYear := true }

def parseShortDate (lib : ListingLibrary) (saneFieldOrder : Bool)
    (token : Token) : Parse (Option Datetime) := do
  require (1 ≤ token.text.length)
  let pos ← expect (token.find ['-', '.', '/'] 0)
  require (1 ≤ pos)
  let fields ← firstDateField lib saneFieldOrder token pos
  let pos2 ← expect (token.find ['-', '.', '/'] (pos + 1))
  require (pos2 - pos ≠ 1)
  require (pos2 ≠ token.text.length - 1)
  let fields ← secondDateField lib token pos pos2 fields
  let fields ← lastDateField token pos2 fields
  require (fields.gotYear && fields.gotMonth && fields.gotDay)
  changeTime fun time =>
    lib.setTime time fields.year fields.month fields.day (-1) (-1)

/-! ## Times -/

def hourOfDay (token : Token) (hour : ℤ) : Parse ℤ :=
  if token.isRightNumeric then pure hour
  else do
    let char ← charAt token.text ((token.text.length : ℤ) - 2)
    if char = 'P' then pure (if hour < 12 then hour + 12 else hour)
    else pure (if hour = 12 then 0 else hour)

def parseSeconds (token : Token) : Option ℕ → Parse ℤ
  | none => pure (-1)
  | some pos2 => do
      let seconds ← token.numberIn (pos2 + 1) (-1)
      require (0 ≤ seconds && seconds ≤ 60)
      pure seconds

def parseTime (lib : ListingLibrary) (token : Token) :
    Parse (Option Datetime) := do
  let entry ← getEntry
  require entry.time.isSome
  let pos ← expect (token.find [':'] 0)
  require (1 ≤ pos && pos < token.text.length - 1)
  let hour ← token.numberIn 0 pos
  require (0 ≤ hour && hour ≤ 24)
  let pos2 := token.find [':'] (pos + 1)
  let len : ℤ :=
    match pos2 with
    | none => -1
    | some pos2 => (pos2 : ℤ) - pos - 1
  require (len ≠ 0)
  let minute ← token.numberIn (pos + 1) len
  require (0 ≤ minute && minute ≤ 59)
  let seconds ← parseSeconds token pos2
  let hour ← hourOfDay token hour
  changeTime fun time => lib.imbueTime time hour minute seconds

/-! ## Unix dates -/

/-- What `ParseUnixDateTime` has found so far, with -1 for what is missing. -/
structure UnixDate where
  index : ℕ
  year : ℤ
  month : ℤ
  day : ℤ
  dateMonth : Token
  mayHaveTime : Bool
  bHasYearAndTime : Bool

def UnixDate.start (index : ℕ) (dateMonth : Token) : UnixDate :=
  ⟨index, -1, -1, -1, dateMonth, true, false⟩

/-- Whether a token with a digit at the start ends with a character that is
not ASCII. -/
def endsForeign (token : Token) : Parse Bool :=
  if token.isLeftNumeric then do
    let char ← charAt token.text ((token.text.length : ℤ) - 1)
    pure (decide (127 < char.toNat))
  else pure false

def yearFirst (index : ℕ) (year : ℤ) : Parse UnixDate := do
  let dateMonth ← needToken (index + 1)
  pure { UnixDate.start (index + 1) dateMonth with
    year := year, mayHaveTime := false }

/-- A token with a delimiter in it.  The flag says that the date is complete. -/
def delimitedDate (lib : ListingLibrary) (index : ℕ) (token : Token)
    (pos : ℕ) : Parse (UnixDate × Bool) := do
  let delimiter ← charAt token.text pos
  match token.find ['-', '/', '.'] (pos + 1) with
  | none =>
      if delimiter ≠ '.' then do
        -- something like 26-05 2002
        let number ← token.numberIn (pos + 1)
          ((token.text.length : ℤ) - pos - 1)
        require (1 ≤ int32 number && int32 number ≤ 31)
        let dateMonth ← token.take pos
        pure ({ UnixDate.start index dateMonth with day := int32 number },
          false)
      else pure (UnixDate.start index token, false)
  | some pos2 => do
      let other ← charAt token.text pos2
      require (delimiter = other)
      let time ← parseShortDate lib false token
      if delimiter = '.' then pure (UnixDate.start index noToken, true)
      else do
        let t := lib.getTm time
        pure ({ UnixDate.start index noToken with
          year := t.year + 1900, month := t.mon + 1, day := t.mday }, false)

def dateStart (lib : ListingLibrary) (index : ℕ) :
    Parse (UnixDate × Bool) := do
  let index := index + 1
  let token ← needToken index
  match token.find ['-', '/', '.'] 0 with
  | some pos => delimitedDate lib index token pos
  | none =>
      let number ← token.number
      if token.isNumeric then
        if 1000 < number ∧ number < 10000 then do
          -- 2005 3 13 or 2005 13 3, the first one is assumed
          let date ← yearFirst index number
          pure (date, false)
        else pure (UnixDate.start index token, false)
      else do
        let foreign ← endsForeign token
        if foreign ∧ 1000 < number then do
          require (number ≤ 10000)
          let date ← yearFirst index number
          pure (date, false)
        else pure (UnixDate.start index token, false)

def dayBefore (date : UnixDate) : Parse ℤ := do
  let last ← back date.dateMonth.text
  let offset := if last = '.' then 1 else 0
  let len := date.dateMonth.text.length - offset
  require (date.dateMonth.isNumericIn 0 len)
  let number ← date.dateMonth.numberIn 0 len
  pure (int32 number)

def timeDelimiter (dayToken : Token) : Parse Char :=
  if dayToken.text.length = 5 then charAt dayToken.text 2 else pure '\x00'

def dayOf (date : UnixDate) (dayToken : Token) : Parse UnixDate :=
  if !dayToken.isNumeric && !dayToken.isLeftNumeric then do
    let day ← dayBefore date
    pure { date with day := day, dateMonth := dayToken }
  else do
    let middle ← timeDelimiter dayToken
    -- a time, so too much has been consumed already
    require (!(middle == ':' && dayToken.isRightNumeric))
    let number ← dayToken.number
    let last ← charAt dayToken.text ((dayToken.text.length : ℤ) - 1)
    pure { date with day := int32 number, bHasYearAndTime := last == ',' }

def dateDay (date : UnixDate) : Parse UnixDate :=
  if 1 ≤ date.day then pure date
  else do
    let dayToken ← needToken (date.index + 1)
    let date ← dayOf { date with index := date.index + 1 } dayToken
    require (1 ≤ date.day && date.day ≤ 31)
    pure date

def lastDigit (text : WString) : ℕ → Parse ℕ
  | 0 => pure 0
  | i + 1 => do
      let char ← charAt text (i + 1)
      if char.isDigit then pure (i + 1) else lastDigit text i

def monthText (token : Token) : Parse WString := do
  let foreign ← endsForeign token
  if foreign then do
    let i ← lastDigit token.text (token.text.length - 1)
    cut token.text 0 (i + 1)
  else pure token.text

def dateMonth (lib : ListingLibrary) (date : UnixDate) : Parse UnixDate :=
  if 1 ≤ date.month then pure date
  else do
    let strMonth ← monthText date.dateMonth
    let month ← findMonth lib
      (strMonth.rdropWhile fun char => char == ',' || char == '.')
    pure { date with month := month }

/-- Whether the hour and the minute are those of a time.  The alternate
representation of midnight is allowed. -/
def isClock (hour minute : ℤ) : Bool :=
  if hour < 0 ∨ 23 < hour then hour == 24 && minute == 0
  else 0 ≤ minute && minute ≤ 59

def parseClock (lib : ListingLibrary) (token : Token) (pos : ℕ) :
    Parse (ℤ × ℤ) := do
  require (pos ≠ 0 && pos ≠ token.text.length - 1)
  let hours ← cut token.text 0 pos
  let minutes ← cutFrom token.text (pos + 1)
  let hour := lib.toIntegral hours (-1)
  let minute := lib.toIntegral minutes (-1)
  require (isClock hour minute)
  pure (hour, minute)

/-- The year of a date without one.  The file is at most one year old, up to
a day, as the time zone of the server is not known. -/
def recentYear (lib : ListingLibrary) (date : UnixDate) : ℤ :=
  let t := lib.getTm lib.now
  let currentDayOfYear := t.mday + 31 * t.mon
  let fileDayOfYear := date.day + 31 * (date.month - 1)
  if currentDayOfYear + 1 < fileDayOfYear then t.year + 1900 - 1
  else t.year + 1900

def timeAfterYear (lib : ListingLibrary) (index : ℕ) :
    Parse (ℕ × ℤ × ℤ) := do
  let timeToken ← needToken (index + 1)
  if timeToken.find [':'] 0 = some 2 ∧ timeToken.text.length = 5 ∧
      timeToken.isLeftNumeric ∧ timeToken.isRightNumeric then do
    let clock ← parseClock lib timeToken 2
    pure (index + 1, clock)
  else pure (index, -1, -1)

def finishDate (lib : ListingLibrary) (date : UnixDate) (index : ℕ)
    (year hour minute : ℤ) : Parse ℕ := do
  let _ ← changeTime fun time =>
    lib.setTime time year date.month date.day hour minute
  pure index

def timeOrYear (lib : ListingLibrary) (date : UnixDate) : Parse ℕ := do
  let index := date.index + 1
  let timeOrYearToken ← needToken index
  match timeOrYearToken.find [':', '.', '-'] 0, date.mayHaveTime with
  | some pos, true => do
      let clock ← parseClock lib timeOrYearToken pos
      if date.year ≤ 0 then do
        require (date.month ≠ -1 && date.day ≠ -1)
        finishDate lib date index (recentYear lib date) clock.1 clock.2
      else finishDate lib date index date.year clock.1 clock.2
  | _, _ =>
      if date.year ≤ 0 then do
        require (timeOrYearToken.isNumeric || timeOrYearToken.isLeftNumeric)
        let number ← timeOrYearToken.number
        let year := int32 number
        require (year ≤ 3000)
        let year := if year < 1000 then year + 1900 else year
        if date.bHasYearAndTime then do
          let time ← timeAfterYear lib index
          finishDate lib date time.1 year time.2.1 time.2.2
        else finishDate lib date index year (-1) (-1)
      else finishDate lib date date.index date.year (-1) (-1)

/-- `ParseUnixDateTime`.  The result is the index of the last token that
belongs to the date. -/
def parseUnixDateTime (lib : ListingLibrary) (index : ℕ) : Parse ℕ := do
  let date ← dateStart lib index
  if date.2 then pure date.1.index
  else do
    let date ← dateDay date.1
    let date ← dateMonth lib date
    timeOrYear lib date

/-! ## The accesses of the dates are in range -/

/-- A date that has been set has a day. -/
def ListingLibrary.SetsDates (lib : ListingLibrary) : Prop :=
  ∀ time year month day hour minute,
    (lib.setTime time year month day hour minute).2 = true →
      1 ≤ (lib.getTm (lib.setTime time year month day hour minute).1).mday

variable {lib : ListingLibrary} {text : WString} {token : Token}

theorem changeTime_spec
    (change : Option Datetime → Option Datetime × Bool) :
    Spec (OnLine text) (changeTime change) fun time =>
      ∃ before, (change before).2 = true ∧ time = (change before).1 := by
  unfold changeTime
  apply Spec.bind getEntry_spec
  intro entry _
  apply setEntry_then
  apply Spec.bind (Spec.require _)
  intro _ hset
  exact Spec.pure ⟨entry.time, hset, rfl⟩

theorem findMonth_spec {inv : ParseState → Prop} (name : WString) :
    Spec inv (findMonth lib name) fun _ => True := by
  unfold findMonth
  apply Spec.bind (Spec.expect _)
  intro month _
  exact Spec.pure trivial

theorem firstDateField_spec {saneFieldOrder : Bool} {pos : ℕ}
    (hpos : pos < token.text.length) :
    Spec (OnLine text) (firstDateField lib saneFieldOrder token pos)
      fun _ => True := by
  unfold firstDateField
  apply Spec.ite
  · intro _
    apply Spec.bind (cut_spec le_rfl (by omega) (by omega))
    intro dateMonth _
    apply Spec.bind (findMonth_spec _)
    intro month _
    exact Spec.pure trivial
  intro _
  apply Spec.ite
  · intro _
    apply Spec.bind (token.numberIn_spec _ _)
    intro year _
    apply Spec.require_then
    exact Spec.pure trivial
  intro _
  apply Spec.ite
  · intro _
    apply Spec.bind (token.numberIn_spec _ _)
    intro value _
    apply Spec.bind (charAt_spec (by omega) (by omega))
    intro delimiter _
    apply Spec.ite
    · intro _
      apply Spec.require_then
      exact Spec.pure trivial
    intro _
    apply Spec.ite
    · intro _
      exact Spec.pure trivial
    · intro _
      apply Spec.require_then
      apply Spec.ite
      · intro _
        apply Spec.require_then
        exact Spec.pure trivial
      · intro _
        exact Spec.pure trivial
  · intro _
    exact Spec.mismatch

theorem secondDateField_spec {pos pos2 : ℕ} (hpos : pos < pos2)
    (hpos2 : pos2 < token.text.length) (fields : DateFields) :
    Spec (OnLine text) (secondDateField lib token pos pos2 fields)
      fun _ => True := by
  unfold secondDateField
  apply Spec.require_then
  apply Spec.ite
  · intro _
    apply Spec.bind (cut_spec (by omega) (by omega) (by omega))
    intro dateMonth _
    apply Spec.bind (findMonth_spec _)
    intro month _
    exact Spec.pure trivial
  · intro _
    apply Spec.bind (token.numberIn_spec _ _)
    intro value _
    apply Spec.require_then
    exact Spec.pure trivial

theorem lastDateField_spec (token : Token) (pos2 : ℕ) (fields : DateFields) :
    Spec (OnLine text) (lastDateField token pos2 fields) fun _ => True := by
  unfold lastDateField
  apply Spec.bind (token.numberIn_spec _ _)
  intro value _
  apply Spec.ite
  · intro _
    apply Spec.require_then
    exact Spec.pure trivial
  · intro _
    apply Spec.require_then
    exact Spec.pure trivial

theorem parseShortDate_spec (hlib : lib.SetsDates) (saneFieldOrder : Bool)
    (token : Token) :
    Spec (OnLine text) (parseShortDate lib saneFieldOrder token) fun time =>
      1 ≤ (lib.getTm time).mday := by
  unfold parseShortDate
  apply Spec.require_then
  apply Spec.bind (Spec.expect _)
  intro pos hfind
  have hpos := Token.find_spec hfind
  apply Spec.require_then
  apply Spec.bind (firstDateField_spec hpos.2.1)
  intro first _
  apply Spec.bind (Spec.expect _)
  intro pos2 hfind2
  have hpos2 := Token.find_spec hfind2
  apply Spec.require_then
  apply Spec.require_then
  apply Spec.bind (secondDateField_spec hpos2.1 hpos2.2.1 first)
  intro second _
  apply Spec.bind (lastDateField_spec token pos2 second)
  intro fields _
  apply Spec.require_then
  apply Spec.weaken (changeTime_spec _)
  intro time htime
  rcases htime with ⟨before, hset, rfl⟩
  exact hlib before _ _ _ _ _ hset

theorem hourOfDay_spec (htoken : 2 ≤ token.text.length) (hour : ℤ) :
    Spec (OnLine text) (hourOfDay token hour) fun _ => True := by
  unfold hourOfDay
  apply Spec.ite
  · intro _
    exact Spec.pure trivial
  · intro _
    apply Spec.bind (charAt_spec (by omega) (by omega))
    intro char _
    apply Spec.ite
    · intro _
      exact Spec.pure trivial
    · intro _
      exact Spec.pure trivial

theorem parseSeconds_spec (token : Token) (pos2 : Option ℕ) :
    Spec (OnLine text) (parseSeconds token pos2) fun _ => True := by
  cases pos2 with
  | none => exact Spec.pure trivial
  | some pos2 =>
      unfold parseSeconds
      apply Spec.bind (token.numberIn_spec _ _)
      intro seconds _
      apply Spec.require_then
      exact Spec.pure trivial

theorem parseTime_spec (lib : ListingLibrary) (token : Token) :
    Spec (OnLine text) (parseTime lib token) fun _ => True := by
  unfold parseTime
  apply Spec.bind getEntry_spec
  intro entry _
  apply Spec.require_then
  apply Spec.bind (Spec.expect _)
  intro pos _
  apply Spec.bind (Spec.require _)
  intro _ hpos
  have hsize : 2 ≤ token.text.length := by
    simp only [Bool.and_eq_true, decide_eq_true_eq] at hpos
    omega
  apply Spec.bind (token.numberIn_spec _ _)
  intro hour _
  apply Spec.require_then
  apply Spec.require_then
  apply Spec.bind (token.numberIn_spec _ _)
  intro minute _
  apply Spec.require_then
  apply Spec.bind (parseSeconds_spec token _)
  intro seconds _
  apply Spec.bind (hourOfDay_spec hsize hour)
  intro hour _
  exact Spec.weaken (changeTime_spec _) fun _ _ => trivial

theorem endsForeign_spec (htoken : token.text ≠ []) :
    Spec (OnLine text) (endsForeign token) fun foreign =>
      foreign = true → token.isLeftNumeric = true := by
  have hpos := List.length_pos_iff.mpr htoken
  unfold endsForeign
  apply Spec.ite
  · intro hleft
    apply Spec.bind (charAt_spec (by omega) (by omega))
    intro char _
    exact Spec.pure fun _ => hleft
  · intro _
    exact Spec.pure fun h => by cases h

/-- A date from which the further steps can go on: the token from which the
month is read is there if the day is missing. -/
def UnixDate.Ready (date : UnixDate) : Prop :=
  1 ≤ date.day ∨ date.dateMonth.text ≠ []

theorem yearFirst_spec (index : ℕ) (year : ℤ) :
    Spec (OnLine text) (yearFirst index year) UnixDate.Ready := by
  unfold yearFirst
  apply Spec.bind (needToken_spec _)
  intro dateMonth htoken
  exact Spec.pure (Or.inr htoken.nonempty)

theorem delimitedDate_spec (hlib : lib.SetsDates) {index pos : ℕ}
    (htoken : token.text ≠ []) (hpos : pos < token.text.length) :
    Spec (OnLine text) (delimitedDate lib index token pos) fun date =>
      date.2 = false → date.1.Ready := by
  unfold delimitedDate
  apply Spec.bind (charAt_spec (by omega) (by omega))
  intro delimiter _
  cases hfind : token.find ['-', '/', '.'] (pos + 1) with
  | none =>
      apply Spec.ite
      · intro _
        apply Spec.bind (token.numberIn_spec _ _)
        intro number _
        apply Spec.bind (Spec.require _)
        intro _ hday
        apply Spec.bind (Token.take_spec hpos.le)
        intro dateMonth _
        rw [Bool.and_eq_true, decide_eq_true_eq, decide_eq_true_eq] at hday
        exact Spec.pure fun _ => Or.inl hday.1
      · intro _
        exact Spec.pure fun _ => Or.inr htoken
  | some pos2 =>
      have hpos2 := Token.find_spec hfind
      apply Spec.bind (charAt_spec (by omega) (by omega))
      intro other _
      apply Spec.require_then
      apply Spec.bind (parseShortDate_spec hlib false token)
      intro time htime
      apply Spec.ite
      · intro _
        exact Spec.pure fun h => by cases h
      · intro _
        exact Spec.pure fun _ => Or.inl htime

theorem dateStart_spec (hlib : lib.SetsDates) (index : ℕ) :
    Spec (OnLine text) (dateStart lib index) fun date =>
      date.2 = false → date.1.Ready := by
  unfold dateStart
  apply Spec.bind (needToken_spec _)
  intro token htoken
  have hstart : (UnixDate.start (index + 1) token).Ready :=
    Or.inr htoken.nonempty
  have hyear (number : ℤ) :
      Spec (OnLine text)
        (do
          let date ← yearFirst (index + 1) number
          pure (date, false))
        fun date => date.2 = false → date.1.Ready := by
    apply Spec.bind (yearFirst_spec _ _)
    intro date hdate
    exact Spec.pure fun _ => hdate
  cases hfind : token.find ['-', '/', '.'] 0 with
  | some pos =>
      have hpos := Token.find_spec hfind
      exact delimitedDate_spec hlib htoken.nonempty hpos.2.1
  | none =>
      apply Spec.bind token.number_spec
      intro number _
      apply Spec.ite
      · intro _
        apply Spec.ite
        · intro _
          exact hyear number
        · intro _
          exact Spec.pure fun _ => hstart
      · intro _
        apply Spec.bind (endsForeign_spec htoken.nonempty)
        intro foreign _
        apply Spec.ite
        · intro _
          apply Spec.require_then
          exact hyear number
        · intro _
          exact Spec.pure fun _ => hstart

theorem dayBefore_spec {date : UnixDate} (hdate : date.dateMonth.text ≠ []) :
    Spec (OnLine text) (dayBefore date) fun _ => True := by
  unfold dayBefore
  apply Spec.bind (back_spec hdate)
  intro last _
  apply Spec.require_then
  apply Spec.bind (date.dateMonth.numberIn_spec _ _)
  intro number _
  exact Spec.pure trivial

theorem timeDelimiter_spec (dayToken : Token) :
    Spec (OnLine text) (timeDelimiter dayToken) fun _ => True := by
  unfold timeDelimiter
  apply Spec.ite
  · intro hlen
    apply Spec.weaken (charAt_spec (by omega) (by omega))
    intro _ _
    trivial
  · intro _
    exact Spec.pure trivial

theorem dayOf_spec {date : UnixDate} {dayToken : Token}
    (hdate : date.dateMonth.text ≠ []) (htoken : dayToken.text ≠ []) :
    Spec (OnLine text) (dayOf date dayToken) fun _ => True := by
  have hpos := List.length_pos_iff.mpr htoken
  unfold dayOf
  apply Spec.ite
  · intro _
    apply Spec.bind (dayBefore_spec hdate)
    intro day _
    exact Spec.pure trivial
  · intro _
    apply Spec.bind (timeDelimiter_spec dayToken)
    intro middle _
    apply Spec.require_then
    apply Spec.bind dayToken.number_spec
    intro number _
    apply Spec.bind (charAt_spec (by omega) (by omega))
    intro last _
    exact Spec.pure trivial

theorem dateDay_spec {date : UnixDate} (hdate : date.Ready) :
    Spec (OnLine text) (dateDay date) fun _ => True := by
  unfold dateDay
  apply Spec.ite
  · intro _
    exact Spec.pure trivial
  · intro hday
    apply Spec.bind (needToken_spec _)
    intro dayToken htoken
    have hmonth := hdate.resolve_left hday
    refine Spec.bind (dayOf_spec ?_ htoken.nonempty) ?_
    · exact hmonth
    intro date _
    apply Spec.require_then
    exact Spec.pure trivial

theorem lastDigit_spec {name : WString} {i : ℕ} (hi : i < name.length) :
    Spec (OnLine text) (lastDigit name i) fun found =>
      found < name.length := by
  induction i with
  | zero => exact Spec.pure hi
  | succ i ih =>
      unfold lastDigit
      apply Spec.bind (charAt_spec (by omega) (by omega))
      intro char _
      apply Spec.ite
      · intro _
        exact Spec.pure hi
      · intro _
        exact ih (by omega)

theorem monthText_spec (token : Token) :
    Spec (OnLine text) (monthText token) fun _ => True := by
  unfold monthText
  by_cases htoken : token.text = []
  · have hforeign : endsForeign token = pure false := by
      unfold endsForeign Token.isLeftNumeric
      rw [htoken]
      rfl
    rw [hforeign]
    exact Spec.pure trivial
  · have hpos := List.length_pos_iff.mpr htoken
    apply Spec.bind (endsForeign_spec htoken)
    intro foreign _
    apply Spec.ite
    · intro _
      apply Spec.bind (lastDigit_spec (by omega))
      intro i hi
      exact Spec.weaken (cut_spec le_rfl (by omega) (by omega)) fun _ _ =>
        trivial
    · intro _
      exact Spec.pure trivial

theorem dateMonth_spec (date : UnixDate) :
    Spec (OnLine text) (dateMonth lib date) fun _ => True := by
  unfold dateMonth
  apply Spec.ite
  · intro _
    exact Spec.pure trivial
  · intro _
    apply Spec.bind (monthText_spec _)
    intro strMonth _
    apply Spec.bind (findMonth_spec _)
    intro month _
    exact Spec.pure trivial

theorem parseClock_spec {pos : ℕ} (hpos : pos < token.text.length) :
    Spec (OnLine text) (parseClock lib token pos) fun _ => True := by
  unfold parseClock
  apply Spec.require_then
  apply Spec.bind (cut_spec le_rfl (by omega) (by omega))
  intro hours _
  apply Spec.bind (cutFrom_spec (by omega) (by omega))
  intro minutes _
  apply Spec.require_then
  exact Spec.pure trivial

theorem timeAfterYear_spec (index : ℕ) :
    Spec (OnLine text) (timeAfterYear lib index) fun _ => True := by
  unfold timeAfterYear
  apply Spec.bind (needToken_spec _)
  intro timeToken _
  apply Spec.ite
  · intro htime
    apply Spec.bind (parseClock_spec (by omega))
    intro clock _
    exact Spec.pure trivial
  · intro _
    exact Spec.pure trivial

theorem finishDate_spec (date : UnixDate) (index : ℕ)
    (year hour minute : ℤ) :
    Spec (OnLine text) (finishDate lib date index year hour minute)
      fun _ => True := by
  unfold finishDate
  apply Spec.bind (changeTime_spec _)
  intro time _
  exact Spec.pure trivial

theorem timeOrYear_spec (date : UnixDate) :
    Spec (OnLine text) (timeOrYear lib date) fun _ => True := by
  unfold timeOrYear
  apply Spec.bind (needToken_spec _)
  intro timeOrYearToken _
  have hyear : Spec (OnLine text)
      (if date.year ≤ 0 then do
        require (timeOrYearToken.isNumeric || timeOrYearToken.isLeftNumeric)
        let number ← timeOrYearToken.number
        let year := int32 number
        require (year ≤ 3000)
        let year := if year < 1000 then year + 1900 else year
        if date.bHasYearAndTime then do
          let time ← timeAfterYear lib (date.index + 1)
          finishDate lib date time.1 year time.2.1 time.2.2
        else finishDate lib date (date.index + 1) year (-1) (-1)
      else finishDate lib date date.index date.year (-1) (-1))
      fun _ => True := by
    apply Spec.ite
    · intro _
      apply Spec.require_then
      apply Spec.bind timeOrYearToken.number_spec
      intro number _
      apply Spec.require_then
      apply Spec.ite
      · intro _
        apply Spec.bind (timeAfterYear_spec _)
        intro time _
        exact finishDate_spec _ _ _ _ _
      · intro _
        exact finishDate_spec _ _ _ _ _
    · intro _
      exact finishDate_spec _ _ _ _ _
  cases hfind : timeOrYearToken.find [':', '.', '-'] 0 with
  | none => exact hyear
  | some pos =>
      cases date.mayHaveTime with
      | false => exact hyear
      | true =>
          apply Spec.bind (parseClock_spec (Token.find_spec hfind).2.1)
          intro clock _
          apply Spec.ite
          · intro _
            apply Spec.require_then
            exact finishDate_spec _ _ _ _ _
          · intro _
            exact finishDate_spec _ _ _ _ _

theorem parseUnixDateTime_spec (hlib : lib.SetsDates) (index : ℕ) :
    Spec (OnLine text) (parseUnixDateTime lib index) fun _ => True := by
  unfold parseUnixDateTime
  apply Spec.bind (dateStart_spec hlib index)
  intro start hstart
  apply Spec.ite
  · intro _
    exact Spec.pure trivial
  · intro hmore
    apply Spec.bind (dateDay_spec (hstart (by simpa using hmore)))
    intro date _
    apply Spec.bind (dateMonth_spec date)
    intro date _
    exact timeOrYear_spec date

end TabFtp
