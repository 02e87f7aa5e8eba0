import Defuse.Stamp

/-!
# Times in archives

An archive packs a date into one word of two bytes and a time of day into another.  Years
count from 1980 in seven bits, and seconds in steps of two.

* `Stamp.ofDos?` — the stamp of two words that form a date and a time;
* `Stamp.toDos` — the words of a stamp;
* `Stamp.dosEpoch` — what is written in place of words that form none.
-/

namespace Defuse.Stamp

/-- Whether a year has a 29th of February. -/
def isLeap (year : Nat) : Bool := year % 4 = 0 && (year % 100 ≠ 0 || year % 400 = 0)

/-- The number of days of a month. -/
def daysOf (year month : Nat) : Nat :=
  if month = 2 then (if isLeap year then 29 else 28)
  else if month = 4 ∨ month = 6 ∨ month = 9 ∨ month = 11 then 30
  else 31

/-- The stamp of a date and a time, if both are in order.  A second 60 counts as 58. -/
def ofDos? (date time : Nat) : Option Stamp :=
  let year := 1980 + date / 512
  let month := date / 32 % 16
  let day := date % 32
  let hour := time / 2048
  let minute := time / 32 % 64
  let second := 2 * (time % 32)
  if 1 ≤ month ∧ month ≤ 12 ∧ 1 ≤ day ∧ day ≤ daysOf year month ∧ hour ≤ 23 ∧ minute ≤ 59 ∧
      second ≤ 60 then
    some ⟨year, month, day, hour, minute, min second 58⟩
  else none

/-- The date and the time of a stamp. -/
def toDos (s : Stamp) : Nat × Nat :=
  ((s.year.toNat - 1980) * 512 + s.month * 32 + s.day, s.hour * 2048 + s.minute * 32 + s.second / 2)

/-- The first stamp that two words can form. -/
def dosEpoch : Stamp := ⟨1980, 1, 1, 0, 0, 0⟩

end Defuse.Stamp
