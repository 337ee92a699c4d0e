import CroniotWatering.Framework

set_option autoImplicit false

/-! # What the sensors are written against

The sensor identifiers (`Sensors/SensorDefs.h`) and the two ways a sensor publishes a value. Each
sensor is a loop that measures, publishes and sleeps; a cycle is one iteration of it. -/

namespace CroniotWatering

def sensorWifiStrength : Int := 39
def sensorBatteryPercentage : Int := 41
def sensorBatteryPowerConsumption : Int := 42
def sensorRamUsage : Int := 44
def sensorCurrentTime : Int := 45

/-- A value on its way to the server. -/
inductive Publication where
  /-- `reportSample`, which batches. -/
  | reportSample (sensorUid : Int) (value : ℚ)
  /-- `sendSensorData`, which sends at once. -/
  | sendSensorData (sensorUid : Int) (value : String)
deriving DecidableEq

/-- The sensor a value is published for. -/
def Publication.sensorUid : Publication → Int
  | .reportSample uid _ => uid
  | .sendSensorData uid _ => uid

/-- What one iteration publishes, and how long it then sleeps. -/
structure SensorCycle where
  published : List Publication
  delayMillis : Int
deriving DecidableEq

end CroniotWatering
