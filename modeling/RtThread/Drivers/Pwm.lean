import Mathlib.Tactic.Linarith
import Mathlib.Tactic.Ring

/-!
# PWM

The conversion of a period and a pulse to a frequency and a count, and back.
-/

namespace RtThread.Pwm

open Nat (mul_le_mul_right div_mul_le_self div_le_of_le_mul mul_div_le mod_lt mod_le)

def product (a b : Nat) : Nat := a * b % 2 ^ 32

structure RtPwmConfiguration where
  period : Nat
  pulse : Nat

/-- `struct mt2625_pwm_dev`, and what is programmed into its channel. -/
structure Mt2625PwmDev where
  pwmCnt : Nat
  isInited : Bool
  frequency : Nat
  dutyCycle : Nat

structure Hal where
  init : Bool
  start : Bool
  /-- The `total_count` of `hal_pwm_set_frequency`, if it succeeds. -/
  setFrequency : Option Nat
  setDutyCycle : Bool
  getFrequency : Bool
  getDutyCycle : Bool

inductive Cmd where
  | enable
  | disable
  | set
  | get
  | other

inductive Err where
  | ok
  | error
  | inval
  deriving DecidableEq

variable (dev : Mt2625PwmDev) (config : RtPwmConfiguration) (hal : Hal)

/-- `drv_pwm_set`, which has no result when it divides by zero. -/
def drvPwmSet : Option (Err × Mt2625PwmDev) :=
  if dev.isInited = false ∧ hal.init = false then some (.error, dev)
  else if config.period = 0 then none
  else match hal.setFrequency with
    | none => some (.error, { dev with isInited := true })
    | some totalCount =>
      let frequency := 1000000000 / config.period
      let dutyRatio := product config.pulse 100 / config.period
      if hal.setDutyCycle then
        some (.ok, ⟨totalCount, true, frequency, product totalCount dutyRatio / 100⟩)
      else some (.error, ⟨totalCount, true, frequency, dev.dutyCycle⟩)

def drvPwmGet : Option (Err × RtPwmConfiguration) :=
  if hal.getFrequency = false ∨ hal.getDutyCycle = false then some (.error, config)
  else if dev.frequency = 0 ∨ dev.pwmCnt = 0 then none
  else
    let period := 1000000000 / dev.frequency
    let dutyRatio := product dev.dutyCycle 100 / dev.pwmCnt
    some (.ok, ⟨period, product dutyRatio period / 100⟩)

def drvPwmControl : Cmd → Option (Err × Mt2625PwmDev × RtPwmConfiguration)
  | .enable =>
    some (if dev.isInited = true ∧ hal.start = true then .ok else .error, dev, config)
  | .disable => some (.ok, { dev with isInited := false }, config)
  | .set => (drvPwmSet dev config hal).map fun (err, dev) =>
    (if err = .ok then .ok else .error, dev, config)
  | .get => (drvPwmGet dev config hal).map fun (err, config) => (err, dev, config)
  | .other => some (.inval, dev, config)

/-- The two ratios are within two percentage points. -/
def Near (a b : RtPwmConfiguration) : Prop :=
  100 * a.pulse * b.period ≤ (100 * b.pulse + 2 * b.period) * a.period ∧
    100 * b.pulse * a.period ≤ (100 * a.pulse + 2 * a.period) * b.period

/-- `PWM_CMD_GET` tells the configuration, where the HAL tells what is programmed. -/
def ReadsBack (dev : Mt2625PwmDev) (config : RtPwmConfiguration) : Prop :=
  ∀ hal : Hal, hal.getFrequency = true → hal.getDutyCycle = true → ∀ other, ∃ seen,
    drvPwmControl dev other hal .get = some (.ok, dev, seen) ∧ seen.pulse ≤ seen.period ∧
      Near config seen

/-- The configuration is refused, or programmed as the integers have it. -/
def Meets : Prop :=
  ∃ err after, drvPwmControl dev config hal .set = some (err, after, config) ∧
    (err = .ok → after.frequency ≠ 0 ∧
      (∀ total ∈ hal.setFrequency,
        after.dutyCycle = total * (100 * config.pulse / config.period) / 100 ∧
          after.dutyCycle ≤ total) ∧
      ReadsBack after config)

/-- The percentage of the integers, and what is left of it in counts. -/
def ratio : Nat := 100 * config.pulse / config.period

def countRatio (total : Nat) : Nat := total * ratio config / 100 * 100 / total

def heldPeriod : Nat := 1000000000 / (1000000000 / config.period)

/-- No product wraps, and rounding to whole percents, counts and nanoseconds costs no more
than two points. -/
structure Fits (total : Nat) : Prop where
  period_le : config.period ≤ 1000000000
  total_ne : total ≠ 0
  pulse : 100 * config.pulse < 2 ^ 32
  count : total * ratio config < 2 ^ 32
  read : countRatio config total * heldPeriod config < 2 ^ 32
  fine : 100 * config.pulse * heldPeriod config ≤
    (100 * (countRatio config total * heldPeriod config / 100) + 2 * heldPeriod config) *
      config.period

variable {dev config hal} {total : Nat}

def read (dev : Mt2625PwmDev) : RtPwmConfiguration :=
  ⟨1000000000 / dev.frequency,
    product (product dev.dutyCycle 100 / dev.pwmCnt) (1000000000 / dev.frequency) / 100⟩

def accepted (config : RtPwmConfiguration) (total : Nat) : Mt2625PwmDev :=
  ⟨total, true, 1000000000 / config.period,
    product total (product config.pulse 100 / config.period) / 100⟩

end RtThread.Pwm
