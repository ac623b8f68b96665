import Mathlib.Data.UInt

/-!
# Supported devices

The entries of `deviceDefinitions` in `devdescr.cc`, with the sizes of their
memories.
-/

namespace Avarice

structure DeviceDef where
  name : String
  flashPageSize : UInt32
  flashPageCount : UInt32
  eepromPageSize : UInt8
  eepromPageCount : UInt32
  deriving DecidableEq, Repr

def DeviceDef.flashSize (d : DeviceDef) : Nat :=
  d.flashPageSize.toNat * d.flashPageCount.toNat

def deviceDefinitions : List DeviceDef := [
  ⟨"atmega16", 128, 128, 4, 128⟩,
  ⟨"atmega162", 128, 128, 4, 128⟩,
  ⟨"atmega169", 128, 128, 4, 128⟩,
  ⟨"atmega323", 128, 256, 4, 256⟩,
  ⟨"atmega32", 128, 256, 4, 256⟩,
  ⟨"atmega64", 256, 256, 8, 256⟩,
  ⟨"atmega128", 256, 512, 8, 512⟩,
  ⟨"at90can128", 256, 512, 8, 512⟩,
  ⟨"atmega164p", 128, 128, 4, 128⟩,
  ⟨"atmega324p", 128, 256, 4, 256⟩,
  ⟨"atmega644", 256, 256, 8, 256⟩,
  ⟨"atmega325", 128, 256, 4, 256⟩,
  ⟨"atmega3250", 128, 256, 4, 256⟩,
  ⟨"atmega645", 256, 256, 8, 256⟩,
  ⟨"atmega6450", 256, 256, 8, 256⟩,
  ⟨"atmega329", 128, 256, 4, 256⟩,
  ⟨"atmega3290", 128, 256, 4, 256⟩,
  ⟨"atmega649", 256, 256, 8, 256⟩,
  ⟨"atmega6490", 256, 256, 8, 256⟩,
  ⟨"atmega640", 256, 256, 8, 512⟩,
  ⟨"atmega1280", 256, 512, 8, 512⟩,
  ⟨"atmega1281", 256, 512, 8, 512⟩,
  ⟨"atmega2560", 256, 1024, 8, 512⟩,
  ⟨"atmega2561", 256, 1024, 8, 512⟩,
  ⟨"atmega48", 64, 64, 4, 64⟩,
  ⟨"atmega88", 64, 128, 4, 128⟩,
  ⟨"atmega168", 128, 128, 4, 128⟩,
  ⟨"attiny13", 32, 32, 1, 64⟩,
  ⟨"attiny2313", 32, 64, 4, 32⟩,
  ⟨"at90pwm2", 64, 128, 4, 128⟩,
  ⟨"at90pwm3", 64, 128, 4, 128⟩,
  ⟨"at90pwm2b", 64, 128, 4, 128⟩,
  ⟨"at90pwm3b", 64, 128, 4, 128⟩,
  ⟨"attiny24", 32, 64, 4, 32⟩,
  ⟨"attiny44", 64, 64, 4, 64⟩,
  ⟨"attiny84", 64, 128, 4, 128⟩,
  ⟨"attiny25", 32, 64, 4, 32⟩,
  ⟨"attiny45", 64, 64, 4, 64⟩,
  ⟨"attiny85", 64, 128, 4, 128⟩,
  ⟨"attiny261", 32, 64, 4, 32⟩,
  ⟨"attiny461", 64, 64, 4, 64⟩,
  ⟨"attiny861", 64, 128, 4, 128⟩,
  ⟨"atmega32c1", 128, 256, 4, 256⟩,
  ⟨"atmega32m1", 128, 256, 4, 256⟩,
  ⟨"at90can32", 256, 128, 8, 128⟩,
  ⟨"at90can64", 256, 256, 8, 256⟩,
  ⟨"at90pwm216", 64, 256, 4, 128⟩,
  ⟨"at90pwm316", 64, 256, 4, 128⟩,
  ⟨"at90usb1287", 256, 512, 8, 512⟩,
  ⟨"at90usb162", 128, 128, 4, 128⟩,
  ⟨"at90usb646", 256, 256, 8, 256⟩,
  ⟨"at90usb647", 256, 256, 8, 256⟩,
  ⟨"atmega1284p", 256, 512, 8, 512⟩,
  ⟨"atmega165", 128, 128, 4, 128⟩,
  ⟨"atmega165p", 128, 128, 4, 128⟩,
  ⟨"atmega168p", 128, 128, 4, 128⟩,
  ⟨"atmega16hva", 128, 128, 4, 64⟩,
  ⟨"atmega3250p", 128, 256, 4, 256⟩,
  ⟨"atmega325p", 128, 256, 4, 256⟩,
  ⟨"atmega328p", 128, 256, 4, 256⟩,
  ⟨"atmega3290p", 128, 256, 4, 256⟩,
  ⟨"atmega329p", 128, 256, 4, 256⟩,
  ⟨"atmega32hvb", 128, 256, 4, 256⟩,
  ⟨"atmega32u4", 128, 256, 4, 256⟩,
  ⟨"atmega406", 128, 320, 4, 128⟩,
  ⟨"atmega48p", 64, 64, 4, 64⟩,
  ⟨"atmega644p", 256, 256, 8, 256⟩,
  ⟨"atmega88p", 64, 128, 4, 128⟩,
  ⟨"attiny167", 128, 128, 4, 128⟩,
  ⟨"attiny43u", 64, 64, 4, 16⟩,
  ⟨"attiny48", 64, 64, 4, 16⟩,
  ⟨"attiny88", 64, 128, 4, 16⟩,
  ⟨"atxmega128a1revd", 512, 272, 32, 64⟩,
  ⟨"atxmega128a1", 512, 272, 32, 64⟩,
  ⟨"atmega128rfa1", 256, 512, 8, 512⟩]

theorem deviceDefinitions_sizes : ∀ d ∈ deviceDefinitions,
    (∃ k ≤ 9, d.flashPageSize.toNat = 2 ^ k) ∧ (∃ k ≤ 5, d.eepromPageSize.toNat = 2 ^ k) ∧
      d.flashSize ≤ 0x40000 := by
  decide +kernel

end Avarice
