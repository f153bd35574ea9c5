import Roster.Time.Calendar
/-! # Instants of Coordinated Universal Time -/
namespace Roster.Time

/-- The first second the calendar covers: the year -262143 begins. -/
def firstSecond : Int := -8334601228800

/-- The last second the calendar covers: the year 262142 ends. -/
def lastSecond : Int := 8210266876799

/-- Nanoseconds beyond one second belong to a leap second, which follows second 59 of a minute. -/
def validInstant (seconds : Int) (nanos : Nat) : Bool :=
  firstSecond ≤ seconds && seconds ≤ lastSecond && nanos < 2000000000 &&
    (nanos < 1000000000 || seconds % 60 == 59)

/-- An instant: whole seconds since 1970, and nanoseconds. -/
structure Timestamp where
  seconds : Int
  nanos : Nat
  valid : validInstant seconds nanos = true
  deriving DecidableEq

namespace Timestamp

/-- The instant of the given seconds and nanoseconds, if the calendar has one. -/
def of? (seconds : Int) (nanos : Nat) : Option Timestamp :=
  if h : validInstant seconds nanos = true then some ⟨seconds, nanos, h⟩ else none

theorem of?_self (t : Timestamp) : of? t.seconds t.nanos = some t := by
  simp [of?, t.valid]

def epoch : Timestamp := ⟨0, 0, by decide⟩

instance : Inhabited Timestamp := ⟨epoch⟩

/-- The instant a number of microseconds after another, if the calendar has one. -/
def addMicros? (t : Timestamp) (micros : Int) : Option Timestamp :=
  let total := t.seconds * 1000000 + micros
  of? (total / 1000000) ((total % 1000000).toNat * 1000 + t.nanos)

/-- Earlier instants come first; within a leap second the nanoseconds decide. -/
def lt (a b : Timestamp) : Prop := a.seconds < b.seconds ∨ a.seconds = b.seconds ∧ a.nanos < b.nanos

instance : LT Timestamp := ⟨lt⟩

instance (a b : Timestamp) : Decidable (a < b) := by
  show Decidable (a.seconds < b.seconds ∨ a.seconds = b.seconds ∧ a.nanos < b.nanos)
  infer_instance

theorem lt_trans {a b c : Timestamp} (hab : a < b) (hbc : b < c) : a < c := by
  change a.seconds < b.seconds ∨ _ at hab
  change b.seconds < c.seconds ∨ _ at hbc
  show a.seconds < c.seconds ∨ a.seconds = c.seconds ∧ a.nanos < c.nanos
  omega

theorem lt_irrefl (a : Timestamp) : ¬ a < a := by
  intro h
  change a.seconds < a.seconds ∨ a.seconds = a.seconds ∧ a.nanos < a.nanos at h
  omega

theorem lt_trichotomy (a b : Timestamp) : a < b ∨ a = b ∨ b < a := by
  have h : (a.seconds < b.seconds ∨ a.seconds = b.seconds ∧ a.nanos < b.nanos) ∨
      (a.seconds = b.seconds ∧ a.nanos = b.nanos) ∨
      (b.seconds < a.seconds ∨ b.seconds = a.seconds ∧ b.nanos < a.nanos) := by
    omega
  refine h.imp_right (Or.imp_left fun heq => ?_)
  cases a
  cases b
  simpa using heq

def date (t : Timestamp) : Date := Date.ofDays (t.seconds / 86400)

def secondOfDay (t : Timestamp) : Nat := (t.seconds % 86400).toNat

end Timestamp

end Roster.Time
