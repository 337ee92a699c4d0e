import CroniotWatering.Framework

set_option autoImplicit false

/-! # The valve and pump sequence

`Tasks/IWaterGpioDriver.h`, `Tasks/Esp32WaterGpioDriver.h` and `Tasks/WaterSequenceController.h`: the
order in which the three lines are written, independent of timing. -/

namespace CroniotWatering

/-- The three lines the watering sequence drives. -/
structure IWaterGpioDriver where
  setPumpLevel : Int → TaskM Unit
  setValve1Level : Int → TaskM Unit
  setValve2Level : Int → TaskM Unit

/-- Write a pin that is connected. -/
def setConnected (pin : GpioNum) (level : Int) : TaskM Unit :=
  if pin ≠ .nc then gpioSetLevel pin level else pure ()

/-- The driver over real pins; a setter whose pin is not connected does nothing. -/
def esp32WaterGpioDriver (pumpPin valve1Pin valve2Pin : GpioNum) : IWaterGpioDriver where
  setPumpLevel := setConnected pumpPin
  setValve1Level := setConnected valve1Pin
  setValve2Level := setConnected valve2Pin

namespace WaterSequenceController

/-- The pump relay is active-low. -/
def kPumpOnLevel : Int := 0
def kPumpOffLevel : Int := 1

variable (driver : IWaterGpioDriver)

/-- Valves closed and pump off, with an intermediate setting of valve 2. -/
def driveToSafeState : TaskM Unit := do
  driver.setValve2Level 1
  driver.setValve1Level 0
  driver.setPumpLevel kPumpOffLevel
  driver.setValve2Level 0
  driver.setValve1Level 0

def openWaterValve : TaskM Unit := do
  driver.setValve1Level 1
  driver.setValve2Level 0

def closeWaterValve : TaskM Unit := do
  driver.setValve2Level 1
  driver.setValve1Level 0

def startWatering : TaskM Unit :=
  driver.setPumpLevel kPumpOnLevel

def stopWatering : TaskM Unit :=
  driver.setPumpLevel kPumpOffLevel

end WaterSequenceController

end CroniotWatering
