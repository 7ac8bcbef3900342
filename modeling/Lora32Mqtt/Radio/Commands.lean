import Lora32Mqtt.Base.RoundedQuotient
import Lora32Mqtt.Radio.TransmitTimeout

/-!
# Starting the radio, and the rest of its interface (`ra01s.cpp`, `lora_esp.cpp`)

The commands with which `LoRaBegin` sets up the chip, the calls that neither task
makes in its loop, and the two functions that start a node.  Arguments of type
`float` are rational numbers.  The board has no pins for `TXEN` and `RXEN`.
-/

namespace Lora32Mqtt

namespace Radio

section Commands

variable (chip : Chip)

/-- The pin is pulled for 20 ms; what it does to the chip is not seen here. -/
def reset : Radio Unit := waitForIdle chip

def calibrate (calibParam : UInt8) : Radio Unit := writeCommand chip 0x89 [calibParam]

def setDio2AsRfSwitchCtrl (enable : UInt8) : Radio Unit :=
  writeCommand chip 0x9D [enable]

/-- `fabs (voltage - level) <= 0.001` -/
def isVoltage (voltage level : Rat) : Bool :=
  decide (level - 1 / 1000 ≤ voltage) && decide (voltage ≤ level + 1 / 1000)

/-- The code of the voltage that the chip is to supply, of 3.3 V if it is none of
the others. -/
def tcxoCode (voltage : Rat) : UInt8 :=
  if isVoltage voltage (16 / 10) then 0x00
  else if isVoltage voltage (17 / 10) then 0x01
  else if isVoltage voltage (18 / 10) then 0x02
  else if isVoltage voltage (22 / 10) then 0x03
  else if isVoltage voltage (24 / 10) then 0x04
  else if isVoltage voltage (27 / 10) then 0x05
  else if isVoltage voltage (30 / 10) then 0x06
  else 0x07

/-- `(uint32_t)((float)delay / 15.625)`: the delay is rounded to a `float`, and the
division is one in `double`. -/
def delayValue (delay : UInt32) : UInt32 :=
  UInt32.ofNat (truncatedQuotient 53 (roundedInteger 24 delay.toNat * 1000) 15625)

/-- Below 2^24 microseconds only the fraction is lost. -/
theorem toNat_delayValue {delay : UInt32} (small : delay.toNat < 2 ^ 24) :
    (delayValue delay).toNat = timerSteps delay.toNat := by
  have fits : delay.toNat * 1000 / 15625 < 2 ^ 21 :=
    Nat.div_lt_of_lt_mul (by omega)
  rw [delayValue, roundedInteger_of_lt (by decide) small,
    truncatedQuotient_of_lt (by decide) fits (by decide), timerSteps,
    UInt32.toNat_ofNat_of_lt' (Nat.lt_trans fits (by decide))]

def setDio3AsTcxoCtrl (voltage : Rat) (delay : UInt32) : Radio Unit :=
  writeCommand chip 0x97 (tcxoCode voltage :: timeoutBytes (delayValue delay))

/-- The limits of the band around a frequency; below all bands the variable is not
assigned. -/
def calFreq (residue : UInt8 × UInt8) (frequency : UInt32) : UInt8 × UInt8 :=
  if frequency > 900000000 then (0xE1, 0xE9)
  else if frequency > 850000000 then (0xD7, 0xD8)
  else if frequency > 770000000 then (0xC1, 0xC5)
  else if frequency > 460000000 then (0x75, 0x81)
  else if frequency > 425000000 then (0x6B, 0x6F)
  else residue

def calibrateImage (residue : UInt8 × UInt8) (frequency : UInt32) : Radio Unit :=
  let bytes := calFreq residue frequency
  writeCommand chip 0x98 [bytes.1, bytes.2]

/-- `(uint32_t)((double)frequency / (double)FREQ_STEP)`: one step is
32000000 / 2^25 Hz, which is 15625 / 2^14. -/
def frequencyWord (frequency : UInt32) : UInt32 :=
  UInt32.ofNat (truncatedQuotient 53 (frequency.toNat * 2 ^ 14) 15625)

def wordBytes (word : UInt32) : List UInt8 :=
  [(word >>> 24).toUInt8, (word >>> 16).toUInt8, (word >>> 8).toUInt8, word.toUInt8]

def setRfFrequency (residue : UInt8 × UInt8) (frequency : UInt32) : Radio Unit := do
  calibrateImage chip residue frequency
  writeCommand chip 0x86 (wordBytes (frequencyWord frequency))

def setRegulatorMode (mode : UInt8) : Radio Unit := writeCommand chip 0x96 [mode]

def setBufferBaseAddress (txBaseAddress rxBaseAddress : UInt8) : Radio Unit :=
  writeCommand chip 0x8F [txBaseAddress, rxBaseAddress]

def setPowerConfig (power : Int8) (rampTime : UInt8) : Radio Unit :=
  let power := if power > 22 then 22 else if power < -3 then -3 else power
  writeCommand chip 0x8E [power.toUInt8, rampTime]

def setPaConfig (paDutyCycle hpMax deviceSel paLut : UInt8) : Radio Unit :=
  writeCommand chip 0x95 [paDutyCycle, hpMax, deviceSel, paLut]

/-- One step of the register is 2.5 mA; a limit that is out of range is ignored. -/
def setOvercurrentProtection (currentLimit : Rat) : Radio Unit :=
  if 0 ≤ currentLimit ∧ currentLimit ≤ 140 then
    writeRegister chip 0x08E7 [UInt8.ofNat (currentLimit / (25 / 10)).floor.toNat]
  else pure ()

/-- The SPI bus, as far as `LoRaInit` asserts that it is there. -/
structure SpiBus where
  initialized : Bool
  deviceAdded : Bool

def loRaInit (bus : SpiBus) : Radio Unit := do
  setActive false
  if bus.initialized && bus.deviceAdded then pure () else Program.hang

def errNone : Int16 := 0

def errInvalidMode : Int16 := 16

/-- The chip is recognised by one of its two sync words. -/
def isSyncWord (bytes : List UInt8) : Bool :=
  bytes == [0x34, 0x44] || bytes == [0x14, 0x24]

def loRaBegin (residue : UInt8 × UInt8) (frequencyInHz : UInt32) (txPowerInDbm : Int8)
    (tcxoVoltage : Rat) (useRegulatorLDO : Bool) : Radio Int16 := do
  let txPowerInDbm := if txPowerInDbm > 22 then 22 else txPowerInDbm
  let txPowerInDbm := if txPowerInDbm < -3 then -3 else txPowerInDbm
  reset chip
  let syncWord ← readRegister chip 0x0740 2
  if isSyncWord syncWord then
    setStandby chip 0x00
    setDio2AsRfSwitchCtrl chip 1
    if tcxoVoltage > 0 then setDio3AsTcxoCtrl chip tcxoVoltage 5000 else pure ()
    calibrate chip 0x7F
    setRegulatorMode chip (if useRegulatorLDO then 0x00 else 0x01)
    setBufferBaseAddress chip 0 0
    setPaConfig chip 0x04 0x07 0x00 0x01
    setOvercurrentProtection chip 60
    setPowerConfig chip txPowerInDbm 0x04
    setRfFrequency chip residue frequencyInHz
    pure errNone
  else pure errInvalidMode

def setTxPower (txPowerInDbm : Int8) : Radio Unit :=
  setPowerConfig chip txPowerInDbm 0x04

def setSyncWord (sync : UInt16) : Radio Unit :=
  writeRegister chip 0x0740 [(sync >>> 8).toUInt8, sync.toUInt8]

def setCadParams (cadSymbolNum cadDetPeak cadDetMin cadExitMode : UInt8)
    (cadTimeout : UInt32) : Radio Unit :=
  writeCommand chip 0x88
    ([cadSymbolNum, cadDetPeak, cadDetMin, cadExitMode] ++ timeoutBytes cadTimeout)

/-- No operand is sent, so that no status is looked at. -/
def setCad : Radio Unit := writeCommand chip 0xC5 []

def wakeup : Radio Unit := do
  let _ ← getStatus chip
  pure ()

def getRssiInst : Radio UInt8 := do
  let buf ← readCommand chip 0x15 2
  pure ((buf.drop 1).headD 0)

/-- RSSI in dBm and SNR in dB of the last packet, from bytes in half a dBm and in
quarters of a dB. -/
def getPacketStatus : Radio (Int × Int) := do
  let buf ← readCommand chip 0x14 4
  let signalRssi := ((buf.drop 3).headD 0).toNat
  let snr := ((buf.drop 2).headD 0).toNat
  pure (((signalRssi / 2 : Nat) : Int) * -1,
    if snr < 128 then ((snr / 4 : Nat) : Int) else ((snr : Int) - 256) / 4)

/-- After an asynchronous transmission: go back to receive mode if it is over. -/
def receiveMode : Radio Bool := do
  let state ← Program.get
  if state.txActive then
    let irq ← getIrqStatus chip
    if irq &&& (0x001 ||| 0x200) ≠ 0 then
      setRx chip 0xFFFFFF
      setActive false
      pure true
    else pure false
  else pure true

end Commands

def getPacketLost (state : RadioState) : Int32 := state.txLost

inductive LoraTask where
  | loraRxTask
  | loraTxTask
  deriving DecidableEq

/-- 3.3 as a `float` -/
def nodeVoltage : Rat := 13841203 / 2 ^ 22

/-- What the two functions do before they differ in the task they create. -/
def startNode (chip : Chip) (bus : SpiBus) (residue : UInt8 × UInt8) (task : LoraTask) :
    Radio (EspErr × List LoraTask) := do
  loRaInit bus
  let status ← loRaBegin chip residue 915000000 22 nodeVoltage true
  if status ≠ errNone then pure (.espFail, [])
  else
    loRaConfig chip nodeArgs
    pure (.espOk, [task])

def initLoraMaster (chip : Chip) (bus : SpiBus) (residue : UInt8 × UInt8) :
    Radio (EspErr × List LoraTask) :=
  startNode chip bus residue .loraRxTask

def initLoraSlave (chip : Chip) (bus : SpiBus) (residue : UInt8 × UInt8) :
    Radio (EspErr × List LoraTask) :=
  startNode chip bus residue .loraTxTask

end Radio

end Lora32Mqtt
