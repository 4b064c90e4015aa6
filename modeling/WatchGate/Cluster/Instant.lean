import WatchGate.Text.Decimal

/-!
# WatchGate: dates with a time of day

The cluster writes instants as a date, a time of day and an offset from UTC. The
reading is lenient about the form: blanks may stand in front of each part, a
space in the place of the `T`, a field of two digits may have one, a year with a
sign any number. It is strict about the meaning: `Instant.valid` asks for a day
that the calendar has, a time of day that the clock shows, where a minute may
end in a leap second, and an instant that lies within the years that are counted.
-/

namespace WatchGate.Cluster

/-- A date and a time of day at an offset from UTC. -/
structure Instant where
  year : Int
  month : Nat
  day : Nat
  hour : Nat
  minute : Nat
  second : Nat
  /-- how many seconds the clock is ahead of UTC -/
  offset : Int
  deriving DecidableEq, Repr

namespace Instant

/-! ## Reading -/

/-- Takes a part off the front of a text, or refuses the text. -/
abbrev Reader (α : Type) := StateT (List Char) Option α

/-- Skips blanks. -/
def blanks : Reader PUnit := modify (·.dropWhile Text.isBlank)

/-- Takes a character of a kind. -/
def char (p : Char → Bool) : Reader Char := fun cs =>
  match cs with
  | c :: rest => if p c then some (c, rest) else none
  | [] => none

/-- Takes a sign. The minus of typesetters is one too. -/
def sign (signs : List Char) : Reader Bool := do
  let c ← char signs.contains
  pure (c != '+')

/-- Takes as many digits as there are, between one and `most`. -/
def number (most : Nat) : Reader Nat := fun cs =>
  let ds := (cs.take most).takeWhile Char.isDigit
  (Text.valueOf? ds).map (fun n => (n, cs.drop ds.length))

/-- Takes two digits. -/
def twoDigits : Reader Nat := do
  let a ← number 1
  let b ← number 1
  pure (a * 10 + b)

/-- Takes a field of one or two digits. -/
def field : Reader Nat := do
  blanks
  number 2

/-- Takes a mark between fields. -/
def mark (c : Char) : Reader PUnit := do
  blanks
  let _ ← char (· == c)

/-- Takes a year: four digits at most, or any number behind a sign. -/
def yearField : Reader Int := do
  blanks
  let cs ← get
  match cs with
  | '-' :: rest => do set rest; pure (-(Int.ofNat (← number rest.length)))
  | '+' :: rest => do set rest; pure (Int.ofNat (← number rest.length))
  | _ => pure (Int.ofNat (← number 4))

/-- Takes a fraction of a second, if there is one. -/
def fraction : Reader PUnit := do
  let cs ← get
  match cs with
  | '.' :: rest => do
    set rest
    let _ ← number rest.length
  | _ => pure ⟨⟩

/-- Takes an offset of hours and minutes. -/
def signedOffset : Reader Int := do
  let behind ← sign ['+', '-', Char.ofNat 0x2212]
  let hours ← twoDigits
  modify (·.dropWhile (fun c => c == ':' || Text.isBlank c))
  let minutes ← twoDigits
  if minutes < 60 then
    let seconds := Int.ofNat (hours * 3600 + minutes * 60)
    pure (if behind then -seconds else seconds)
  else failure

/-- Takes an offset: the name or the letter of UTC, or hours and minutes. -/
def offsetField : Reader Int := do
  let cs ← get
  if Text.eqIgnoringCase (cs.take 3) ['u', 't', 'c'] then do set (cs.drop 3); pure 0
  else
    match cs with
    | c :: rest => if c = 'Z' ∨ c = 'z' then do set rest; pure 0 else signedOffset
    | [] => failure

/-- Takes an instant. -/
def reader : Reader Instant := do
  let year ← yearField
  mark '-'
  let month ← field
  mark '-'
  let day ← field
  let _ ← char ['T', 't', ' '].contains
  let hour ← field
  mark ':'
  let minute ← field
  mark ':'
  let second ← field
  fraction
  blanks
  let offset ← offsetField
  blanks
  pure ⟨year, month, day, hour, minute, second, offset⟩

/-! ## Meaning -/

/-- Whether a year has a leap day. -/
def isLeapYear (year : Int) : Bool :=
  year % 4 == 0 && (year % 100 != 0 || year % 400 == 0)

/-- How many days a month has. -/
def daysOf (year : Int) (month : Nat) : Nat :=
  if month = 2 then (if isLeapYear year then 29 else 28)
  else if [4, 6, 9, 11].contains month then 30
  else 31

/-- The first year that is counted. -/
def firstYear : Int := -262143

/-- The last year that is counted. -/
def lastYear : Int := 262142

/-- Whether the calendar has the day. -/
def dateValid (i : Instant) : Bool :=
  1 ≤ i.month && i.month ≤ 12 && 1 ≤ i.day && i.day ≤ daysOf i.year i.month

/-- Whether the clock shows the time; the last second of a minute may be a leap second. -/
def timeValid (i : Instant) : Bool :=
  i.hour < 24 && i.minute < 60 && i.second ≤ 60

/-- The seconds of a day. -/
def secondsOfDay : Int := 86400

/-- The second of the day, from the start of the day at the offset, that it is in UTC. A leap second
is the one before it. -/
def secondInUtc (i : Instant) : Int :=
  Int.ofNat (i.hour * 3600 + i.minute * 60 + min i.second 59) - i.offset

/-- Whether the instant lies within the years that are counted, at the offset and in UTC. -/
def counted (i : Instant) : Bool :=
  firstYear ≤ i.year && i.year ≤ lastYear
    && !(i.year == firstYear && i.month == 1 && i.day == 1 && i.secondInUtc < 0)
    && !(i.year == lastYear && i.month == 12 && i.day == 31
      && secondsOfDay ≤ i.secondInUtc)

/-- Whether there is such an instant. -/
def valid (i : Instant) : Bool :=
  i.dateValid && i.timeValid && -secondsOfDay < i.offset && i.offset < secondsOfDay && i.counted

/-- The instant that a text writes. -/
def parse? (cs : List Char) : Option Instant :=
  match reader.run cs with
  | some (i, []) => if i.valid then some i else none
  | _ => none

/-- What is read is an instant that there is. -/
theorem valid_of_parse? {cs : List Char} {i : Instant} (h : parse? cs = some i) : i.valid := by
  unfold parse? at h
  split at h
  · split at h
    · next hv => simp only [Option.some.injEq] at h; exact h ▸ hv
    · simp at h
  · simp at h

end Instant

end WatchGate.Cluster
