/-!
# Durations

A duration has whole seconds that fill 64 bits and a fraction in nanoseconds. Sums carry from the
fraction and have no value when the seconds overflow: `add?_eq_some_iff` says that this is addition
of nanoseconds below the bound `Duration.limit`.
-/

namespace Switchboard

/-- A span of time. -/
structure Duration where
  /-- Whole seconds. -/
  seconds : UInt64
  /-- What is left, in nanoseconds. -/
  nanos : Nat
  /-- The fraction is less than a second. -/
  nanos_lt : nanos < 1000000000 := by decide
deriving DecidableEq, Repr

namespace Duration

/-- No time at all. -/
def zero : Duration := ⟨0, 0, by decide⟩

/-- The longest duration. -/
def max : Duration := ⟨18446744073709551615, 999999999, by decide⟩

/-- The least number of nanoseconds that is no duration. -/
def limit : Nat := UInt64.size * 1000000000

/-- The duration in nanoseconds. -/
def toNanos (d : Duration) : Nat := d.seconds.toNat * 1000000000 + d.nanos

/-- A duration of whole milliseconds. -/
def ofMillis (ms : UInt64) : Duration :=
  ⟨ms / 1000, (ms % 1000).toNat * 1000000, by
    have h : (ms % 1000).toNat < 1000 := by
      rw [UInt64.toNat_mod]; exact Nat.mod_lt _ (by decide)
    omega⟩

/-- The whole milliseconds of a duration, rounded down. -/
def toMillis (d : Duration) : Nat := d.seconds.toNat * 1000 + d.nanos / 1000000

/-- The least number of milliseconds that is not shorter. -/
def toMillisUp (d : Duration) : Nat := d.seconds.toNat * 1000 + (d.nanos + 999999) / 1000000

/-- The duration of a number of nanoseconds, if it is below the limit. -/
def ofNanos? (n : Nat) : Option Duration :=
  if n < limit then
    some ⟨UInt64.ofNat (n / 1000000000), n % 1000000000, Nat.mod_lt _ (by decide)⟩
  else none

/-- The sum, if it is a duration. -/
def add? (a b : Duration) : Option Duration :=
  let nanos := a.nanos + b.nanos
  let seconds := a.seconds.toNat + b.seconds.toNat + nanos / 1000000000
  if seconds < UInt64.size then
    some ⟨UInt64.ofNat seconds, nanos % 1000000000, Nat.mod_lt _ (by decide)⟩
  else none

/-- The difference, if it is not negative. -/
def sub? (a b : Duration) : Option Duration :=
  if b.toNanos ≤ a.toNanos then ofNanos? (a.toNanos - b.toNanos) else none

/-- Shorter, compared by seconds and then by the fraction. -/
def lt (a b : Duration) : Bool :=
  a.seconds < b.seconds || (a.seconds == b.seconds && a.nanos < b.nanos)

/-- Every duration lies below the limit. -/
theorem toNanos_lt (d : Duration) : d.toNanos < limit := by
  have h := d.seconds.toNat_lt
  have := d.nanos_lt
  simp only [toNanos, limit, UInt64.size]
  omega

/-- Durations with equal nanoseconds are equal. -/
theorem ext_toNanos {a b : Duration} (h : a.toNanos = b.toNanos) : a = b := by
  obtain ⟨s, n, hn⟩ := a
  obtain ⟨t, m, hm⟩ := b
  simp only [toNanos] at h
  have hs : s.toNat = t.toNat := by omega
  have hnm : n = m := by omega
  cases UInt64.toNat_inj.1 hs
  subst hnm
  rfl

/-- The order of durations is the order of their nanoseconds. -/
theorem lt_iff {a b : Duration} : a.lt b = true ↔ a.toNanos < b.toNanos := by
  have ha := a.nanos_lt
  have hb := b.nanos_lt
  simp only [lt, toNanos, Bool.or_eq_true, Bool.and_eq_true, decide_eq_true_eq, beq_iff_eq,
    UInt64.lt_iff_toNat_lt, ← UInt64.toNat_inj]
  omega

/-- A sum is a duration exactly when its nanoseconds stay below the limit. -/
theorem add?_eq_some_iff {a b c : Duration} :
    a.add? b = some c ↔ c.toNanos = a.toNanos + b.toNanos := by
  have hc := c.toNanos_lt
  have ha := a.nanos_lt
  have hb := b.nanos_lt
  constructor
  · intro h
    simp only [add?] at h
    split at h
    · rename_i hlt
      cases h
      simp only [toNanos]
      rw [UInt64.toNat_ofNat_of_lt' hlt]
      omega
    · cases h
  · intro h
    have hlt : a.seconds.toNat + b.seconds.toNat + (a.nanos + b.nanos) / 1000000000 <
        UInt64.size := by
      simp only [toNanos, limit, UInt64.size] at h hc ⊢
      omega
    simp only [add?, if_pos hlt, Option.some.injEq]
    apply ext_toNanos
    rw [h]
    simp only [toNanos]
    rw [UInt64.toNat_ofNat_of_lt' hlt]
    omega

/-- Two durations have a sum just if their nanoseconds stay below the limit together. -/
theorem isSome_add?_iff {a b : Duration} :
    (a.add? b).isSome = true ↔ a.toNanos + b.toNanos < limit := by
  have ha := a.nanos_lt
  have hb := b.nanos_lt
  have hlimit : a.seconds.toNat + b.seconds.toNat + (a.nanos + b.nanos) / 1000000000 < UInt64.size ↔
      a.toNanos + b.toNanos < limit := by
    simp only [toNanos, limit, UInt64.size]
    omega
  rw [← hlimit]
  simp only [add?]
  split <;> simp_all

/-- The fraction `part / unit` in decimal digits, without zeros at the end. -/
def fractionDigits (part unit : Nat) : List Char :=
  let padded := (toString (unit + part)).toList.drop 1
  (padded.reverse.dropWhile (· == '0')).reverse

/-- A whole number of some unit and the fraction behind it. -/
def decimal (whole part unit : Nat) (symbol : String) : String :=
  let digits := fractionDigits part unit
  toString whole ++ (if digits.isEmpty then "" else "." ++ String.ofList digits) ++ symbol

/-- The text of a duration, in the largest unit of which it holds at least one. -/
def text (d : Duration) : String :=
  if d.seconds ≠ 0 then decimal d.seconds.toNat d.nanos 1000000000 "s"
  else if 1000000 ≤ d.nanos then decimal (d.nanos / 1000000) (d.nanos % 1000000) 1000000 "ms"
  else if 1000 ≤ d.nanos then decimal (d.nanos / 1000) (d.nanos % 1000) 1000 "µs"
  else decimal d.nanos 0 1 "ns"

example : (ofMillis 1500).text = "1.5s" ∧ (ofMillis 250).text = "250ms" := by decide +kernel

end Duration

end Switchboard
