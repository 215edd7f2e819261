import VpnControl.Lib.Reader
import VpnControl.Lib.Calendar
import VpnControl.HttpApi.Url

namespace VpnControl.HttpApi
open Reader Calendar

def digitValue (b : UInt8) : Option Nat :=
  if 48 ≤ b ∧ b ≤ 57 then some (b.toNat - 48) else none

def exactly (b : UInt8) : Reader UInt8 Unit := token fun c => if c = b then some () else none

def digit : Reader UInt8 Nat := token digitValue

/-- `getnum`: two digits, or one if the width is not fixed. -/
def getnum (fixed : Bool) : Reader UInt8 Nat := do
  let tens ← digit
  let two : Reader UInt8 Nat := do
    let ones ← digit
    return tens * 10 + ones
  if fixed then two else orElse two (pure tens)

def longYear : Reader UInt8 Nat := do
  let a ← digit
  let b ← digit
  let c ← digit
  let d ← digit
  return ((a * 10 + b) * 10 + c) * 10 + d

/-- `parseNanoseconds`: what goes beyond nanoseconds is cut off. -/
def nanoseconds (digits : List Nat) : Nat :=
  let ds := digits.take 9
  ds.foldl (fun n d => n * 10 + d) 0 * 10 ^ (9 - ds.length)

/-- A fraction of a second may follow although the layout has none. -/
def fraction : Reader UInt8 Nat :=
  orElse (do
    token fun c => if c = 46 ∨ c = 44 then some () else none
    let d ← digit
    let ds ← many digitValue
    return nanoseconds (d :: ds)) (pure 0)

/-- `Z07:00`, in seconds east of UTC. -/
def zoneOffset : Reader UInt8 Int :=
  orElse (do
    exactly 90
    return 0) (do
    let sign : Int ← token fun c => if c = 43 then some 1 else if c = 45 then some (-1) else none
    let hr ← getnum true
    exactly 58
    let mm ← getnum true
    require (hr ≤ 24 ∧ mm ≤ 60)
    return sign * ((hr * 60 + mm) * 60))

def stamp : Reader UInt8 Stamp := do
  let year ← longYear
  exactly 45
  let month ← getnum true
  require (1 ≤ month ∧ month ≤ 12)
  exactly 45
  let day ← getnum true
  exactly 84
  let hour ← getnum false
  require (hour < 24)
  exactly 58
  let minute ← getnum true
  require (minute < 60)
  exactly 58
  let second ← getnum true
  require (second < 60)
  return ⟨year, month, day, hour, minute, second⟩

/-- The instant that a text in the layout `time.RFC3339` means, in nanoseconds. -/
def instant : Reader UInt8 Int := do
  let t ← stamp
  let nsec ← fraction
  let offset ← zoneOffset
  require (1 ≤ t.day ∧ t.day ≤ daysIn t.month t.year)
  return ((t.seconds : Int) - offset) * 1000000000 + nsec

/-- `time.Parse(time.RFC3339, value)`. -/
def parseTime (value : Bytes) : Option Int :=
  match instant.run value with
  | some (t, []) => some t
  | _ => none

section Takes

/-- The bytes of a time. -/
def stampByte (b : UInt8) : Bool := (48 ≤ b && b ≤ 58) || b == 84 || b == 90 || (43 ≤ b && b ≤ 46)

theorem stampByte_of_digit {b : UInt8} (h : (digitValue b).isSome) : stampByte b = true := by
  rw [digitValue] at h
  split_ifs at h with hb
  · have hle : b ≤ 58 := UInt8.le_trans hb.2 (by decide)
    simp [stampByte, hb.1, hle]
  · cases h

theorem takes_digit : Takes (stampByte · = true) digit := takes_token fun _ => stampByte_of_digit

theorem takes_exactly {b : UInt8} (h : stampByte b = true) : Takes (stampByte · = true) (exactly b) := by
  apply takes_token
  intro c hc
  split_ifs at hc with hcb
  · rw [hcb, h]
  · cases hc

theorem takes_getnum (fixed : Bool) : Takes (stampByte · = true) (getnum fixed) := by
  refine takes_bind takes_digit fun tens => ?_
  have htwo := takes_bind takes_digit fun ones => takes_pure (P := (stampByte · = true)) (tens * 10 + ones)
  cases fixed with
  | true => exact htwo
  | false => exact takes_orElse htwo (takes_pure tens)

theorem takes_longYear : Takes (stampByte · = true) longYear :=
  takes_bind takes_digit fun _ => takes_bind takes_digit fun _ => takes_bind takes_digit fun _ =>
    takes_bind takes_digit fun _ => takes_pure _

theorem takes_fraction : Takes (stampByte · = true) fraction := by
  refine takes_orElse (takes_bind (takes_token ?_) fun _ => takes_bind takes_digit fun _ =>
    takes_bind (takes_many fun _ => stampByte_of_digit) fun _ => takes_pure _) (takes_pure 0)
  intro c hc
  split_ifs at hc with hcb
  · rcases hcb with rfl | rfl <;> decide
  · cases hc

theorem takes_zoneOffset : Takes (stampByte · = true) zoneOffset := by
  refine takes_orElse (takes_bind (takes_exactly (by decide)) fun _ => takes_pure 0)
    (takes_bind (takes_token ?_) fun _ => takes_bind (takes_getnum true) fun _ =>
      takes_bind (takes_exactly (by decide)) fun _ => takes_bind (takes_getnum true) fun _ =>
      takes_bind takes_require fun _ => takes_pure _)
  intro c hc
  split_ifs at hc with hplus hminus
  · rw [hplus]
    decide
  · rw [hminus]
    decide
  · cases hc

theorem takes_stamp : Takes (stampByte · = true) stamp := by
  refine takes_bind takes_longYear fun _ => ?_
  refine takes_bind (takes_exactly (by decide)) fun _ => ?_
  refine takes_bind (takes_getnum true) fun _ => takes_bind takes_require fun _ => ?_
  refine takes_bind (takes_exactly (by decide)) fun _ => takes_bind (takes_getnum true) fun _ => ?_
  refine takes_bind (takes_exactly (by decide)) fun _ => ?_
  refine takes_bind (takes_getnum false) fun _ => takes_bind takes_require fun _ => ?_
  refine takes_bind (takes_exactly (by decide)) fun _ => ?_
  refine takes_bind (takes_getnum true) fun _ => takes_bind takes_require fun _ => ?_
  refine takes_bind (takes_exactly (by decide)) fun _ => ?_
  exact takes_bind (takes_getnum true) fun _ => takes_bind takes_require fun _ => takes_pure _

/-- A text that is a time has no bytes but those of a time. -/
theorem stampByte_of_parseTime {value : Bytes} {t : Int} (h : parseTime value = some t) {b : UInt8}
    (hb : b ∈ value) : stampByte b = true := by
  have htakes : Takes (stampByte · = true) instant :=
    takes_bind takes_stamp fun _ => takes_bind takes_fraction fun _ =>
      takes_bind takes_zoneOffset fun _ => takes_bind takes_require fun _ => takes_pure _
  rw [parseTime] at h
  split at h
  case h_2 => cases h
  case h_1 t' hrun =>
    obtain ⟨d, rfl, hd⟩ := htakes value t' [] hrun
    rw [List.append_nil] at hb
    exact hd b hb

end Takes
end VpnControl.HttpApi
