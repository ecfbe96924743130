namespace EntityGraph

def isLeapYear (year : Int) : Bool :=
  year % 4 == 0 && (year % 100 != 0 || year % 400 == 0)

def daysInMonth (year : Int) (month : Nat) : Nat :=
  match month with
  | 2 => if isLeapYear year then 29 else 28
  | 4 | 6 | 9 | 11 => 30
  | _ => 31

structure Date where
  year : Int
  month : Nat
  day : Nat
  inRange : -262143 ≤ year ∧ year ≤ 262142
  valid : 1 ≤ month ∧ month ≤ 12 ∧ 1 ≤ day ∧ day ≤ daysInMonth year month
  deriving DecidableEq

namespace Date

def of? (year : Int) (month day : Nat) : Option Date :=
  if h : (-262143 ≤ year ∧ year ≤ 262142) ∧
      1 ≤ month ∧ month ≤ 12 ∧ 1 ≤ day ∧ day ≤ daysInMonth year month then
    some ⟨year, month, day, h.1, h.2⟩
  else none

def next? (d : Date) : Option Date :=
  if d.day < daysInMonth d.year d.month then of? d.year d.month (d.day + 1)
  else if d.month < 12 then of? d.year (d.month + 1) 1
  else of? (d.year + 1) 1 1

def previous? (d : Date) : Option Date :=
  if 1 < d.day then of? d.year d.month (d.day - 1)
  else if 1 < d.month then of? d.year (d.month - 1) (daysInMonth d.year (d.month - 1))
  else of? (d.year - 1) 12 31

end Date

/-- A moment of a day. The second 60 is kept as second 59 with a full second of nanoseconds, so that
it never moves into the next minute. -/
structure DateTime where
  date : Date
  second : Nat
  nano : Nat
  deriving DecidableEq

namespace DateTime

def of? (date : Date) (hour minute second nano : Nat) : Option DateTime :=
  if hour < 24 ∧ minute < 60 ∧ second ≤ 60 ∧ nano < 1000000000 then
    if second = 60 then some ⟨date, hour * 3600 + minute * 60 + 59, nano + 1000000000⟩
    else some ⟨date, hour * 3600 + minute * 60 + second, nano⟩
  else none

def midnight (date : Date) : DateTime :=
  ⟨date, 0, 0⟩

def toUtc? (t : DateTime) (ahead : Int) : Option DateTime :=
  let second := (t.second : Int) - ahead
  if second < 0 then t.date.previous?.map fun d => ⟨d, (second + 86400).toNat, t.nano⟩
  else if 86400 ≤ second then t.date.next?.map fun d => ⟨d, (second - 86400).toNat, t.nano⟩
  else some ⟨t.date, second.toNat, t.nano⟩

end DateTime

end EntityGraph
