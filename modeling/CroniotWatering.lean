import CroniotWatering.Components.BasePeripheral.Registers
import CroniotWatering.Main.AppMain
import CroniotWatering.Main.Exceptions
import CroniotWatering.Main.Orders
import CroniotWatering.Main.Restart
import CroniotWatering.Sensors.AnalogSensors
import CroniotWatering.Sensors.SensorCurrentTime
import CroniotWatering.SensorsInitializer.AllSensors
import CroniotWatering.Tasks.TaskWaterPlants.Dose
import CroniotWatering.TasksInitializer
