import StreamDataProcessor.Metadata.Access

/-!
# Converting durations

`time_utils::convertTime`: through a double of the target unit, checked against
the range of the target, then truncated towards zero.
-/

namespace StreamDataProcessor.Utils

open Foundation.Binary64 Arrow Metadata

set_option autoImplicit false

def secondsIn : Metadata.TimeUnit → ℚ
  | .nano => 1 / 1000000000
  | .micro => 1 / 1000000
  | .milli => 1 / 1000
  | .second => 1
  | .minute => 60
  | .hour => 3600
  | .day => 86400
  | .week => 604800

/-- `static_cast<int64_t>` of a double in range. -/
def truncate (value : ℚ) : Int := value.num.tdiv value.den

/-- `checkedConvert`. The bounds are compared as doubles, so the value 2^63 passes the
check and its cast is undefined. -/
def checkedConvert (doubledDuration : ℚ) : Outcome Int :=
  if doubledDuration < -2 ^ 63 ∨ doubledDuration > 2 ^ 63 then
    fail .typeError "Overflow while converting durations"
  else if doubledDuration = 2 ^ 63 then .error (.undefined "cast of a double out of range")
  else .ok (truncate doubledDuration)

def convertTime (time : Int) (source target : Metadata.TimeUnit) : Outcome Int :=
  if source = target then .ok time
  else checkedConvert (nearest (nearest time * (secondsIn source / secondsIn target)))

example : convertTime 1500 .milli .second = .ok 1 := by decide +kernel

theorem convert_time_ends (time : Int) (source target : Metadata.TimeUnit) (fault : Fault)
    (raised : convertTime time source target = .error fault) : fault ≠ .diverges := by
  unfold convertTime checkedConvert at raised
  split_ifs at raised <;> cases raised <;> simp

end StreamDataProcessor.Utils
