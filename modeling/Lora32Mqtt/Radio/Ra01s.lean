import Lora32Mqtt.Base.Program
import Lora32Mqtt.Lora.Messages

/-!
# The radio driver (`ra01s.cpp`)

The chip is whatever it answers: a byte for each byte clocked out, which may depend
on the transaction, and a level of the BUSY pin for each wait.  The driver's state
keeps the static variables and the list of transactions, each the bytes sent between
two edges of the select pin.  `LoRaError` never returns.
-/

namespace Lora32Mqtt

/-- Everything the driver sees of the chip. -/
structure Chip where
  /-- What comes back while a byte is sent after these in a transaction, and after so
  many exchanges in all. -/
  reply : List UInt8 → Nat → UInt8
  /-- Whether BUSY goes low before a wait times out. -/
  idles : Nat → Bool

structure RadioState where
  packetParams : CArray 6
  txActive : Bool
  txLost : Int32
  /-- Bytes exchanged and waits made so far. -/
  exchanged : Nat
  waited : Nat
  /-- The open transaction, and the closed ones. -/
  current : List UInt8
  log : List (List UInt8)

abbrev Radio (Result : Type) : Type := Program RadioState Result

namespace Radio

def loRaError {Result : Type} : Radio Result := Program.hang

section Driver

variable (chip : Chip)

def waitForIdle : Radio Unit := fun state =>
  if chip.idles state.waited then
    (some (), { state with waited := state.waited + 1 })
  else loRaError state

def spiTransfer (byte : UInt8) : Radio UInt8 := fun state =>
  (some (chip.reply state.current state.exchanged),
    { state with
      exchanged := state.exchanged + 1
      current := state.current ++ [byte] })

/-- The frame common to all accesses: wait, pull the select pin, send the
command byte and what follows, release the pin, wait. -/
def transaction {Result : Type} (cmd : UInt8) (body : Radio Result) :
    Radio Result := do
  waitForIdle chip
  Program.modify fun state => { state with current := [] }
  let _ ← spiTransfer chip cmd
  let result ← body
  Program.modify fun state =>
    { state with log := state.log ++ [state.current] }
  waitForIdle chip
  pure result

/-- Status of a byte that came back while a command was sent, 0 if good. -/
def transferStatus (input : UInt8) : UInt8 :=
  if input &&& 0x0E = 0x06 ∨ input &&& 0x0E = 0x08 ∨ input &&& 0x0E = 0x0A then
    input &&& 0x0E
  else if input = 0x00 ∨ input = 0xFF then 0xFF
  else 0

/-- Send the operands; the first bad status breaks off. -/
def sendChecked : List UInt8 → Radio UInt8
  | [] => pure 0
  | byte :: rest => do
      let input ← spiTransfer chip byte
      if transferStatus input ≠ 0 then pure (transferStatus input)
      else sendChecked rest

def sendAll : List UInt8 → Radio Unit
  | [] => pure ()
  | byte :: rest => do
      let _ ← spiTransfer chip byte
      sendAll rest

def readAll : Nat → Radio (List UInt8)
  | 0 => pure []
  | count + 1 => do
      let first ← spiTransfer chip 0x00
      let rest ← readAll count
      pure (first :: rest)

def writeCommand2 (cmd : UInt8) (data : List UInt8) : Radio UInt8 :=
  transaction chip cmd (sendChecked chip data)

/-- Nine attempts, then `LoRaError`. -/
def writeCommand (cmd : UInt8) (data : List UInt8) : Radio Unit :=
  Program.retry (do
    let status ← writeCommand2 chip cmd data
    pure (if status = 0 then some () else none)) 9

def readCommand (cmd : UInt8) (count : Nat) : Radio (List UInt8) :=
  transaction chip cmd (readAll chip count)

def writeRegister (reg : UInt16) (data : List UInt8) : Radio Unit :=
  transaction chip 0x0D (do
    sendAll chip [(reg >>> 8).toUInt8, reg.toUInt8]
    sendAll chip data)

def readRegister (reg : UInt16) (count : Nat) : Radio (List UInt8) :=
  transaction chip 0x1D (do
    sendAll chip [(reg >>> 8).toUInt8, reg.toUInt8, 0x00]
    readAll chip count)

def writeBuffer (data : List UInt8) : Radio Unit :=
  transaction chip 0x0E (do
    sendAll chip [0]
    sendAll chip data)

/-- The received payload, empty if it does not fit. -/
def readBuffer (rxDataLen : Int) : Radio (List UInt8) := do
  let status ← readCommand chip 0x13 3
  let payloadLength := (status.drop 1).headD 0
  let offset := (status.drop 2).headD 0
  if (payloadLength.toNat : Int) > rxDataLen then pure []
  else transaction chip 0x1E (do
    sendAll chip [offset, 0x00]
    readAll chip payloadLength.toNat)

def getStatus : Radio UInt8 := do
  let data ← readCommand chip 0xC0 1
  pure (data.headD 0)

def getIrqStatus : Radio UInt16 := do
  let data ← readCommand chip 0x12 3
  pure (((data.drop 1).headD 0).toUInt16 <<< 8 |||
    ((data.drop 2).headD 0).toUInt16)

def clearIrqStatus (irq : UInt16) : Radio Unit :=
  writeCommand chip 0x02 [(irq >>> 8).toUInt8, irq.toUInt8]

def setStandby (mode : UInt8) : Radio Unit := writeCommand chip 0x80 [mode]

/-- Poll up to ten times for a mode of the chip. -/
def awaitMode (mode : UInt8) : Nat → Radio Unit
  | 0 => pure ()
  | attempts + 1 => do
      let status ← getStatus chip
      if status &&& 0x70 = mode then pure () else awaitMode mode attempts

def requireMode (mode : UInt8) : Radio Unit := do
  awaitMode chip mode 10
  let status ← getStatus chip
  if status &&& 0x70 = mode then pure () else loRaError

def timeoutBytes (timeout : UInt32) : List UInt8 :=
  [(timeout >>> 16).toUInt8, (timeout >>> 8).toUInt8, timeout.toUInt8]

def setRx (timeout : UInt32) : Radio Unit := do
  setStandby chip 0x00
  writeCommand chip 0x82 (timeoutBytes timeout)
  requireMode chip 0x50

/-- One step of the timer is 1/64 of a microsecond. -/
def setTx (timeoutInMs : UInt32) : Radio Unit := do
  setStandby chip 0x00
  writeCommand chip 0x83 (timeoutBytes (timeoutInMs * 1000 * 64))
  requireMode chip 0x60

def setStopRxTimerOnPreambleDetect (enable : Bool) : Radio Unit :=
  writeCommand chip 0x9F [if enable then 1 else 0]

def setLoRaSymbNumTimeout (symbNum : UInt8) : Radio Unit :=
  writeCommand chip 0xA0 [symbNum]

def setPacketType (packetType : UInt8) : Radio Unit :=
  writeCommand chip 0x8A [packetType]

def setModulationParams (spreadingFactor bandwidth codingRate
    lowDataRateOptimize : UInt8) : Radio Unit :=
  writeCommand chip 0x8B
    [spreadingFactor, bandwidth, codingRate, lowDataRateOptimize]

def setDioIrqParams (irqMask dio1Mask dio2Mask dio3Mask : UInt16) :
    Radio Unit :=
  writeCommand chip 0x08
    ([irqMask, dio1Mask, dio2Mask, dio3Mask].flatMap fun (mask : UInt16) =>
      [(mask >>> 8).toUInt8, mask.toUInt8])

/-- Bit 2 of the IQ polarity register is cleared for inverted IQ. -/
def fixInvertedIQ (iqConfig : UInt8) : Radio Unit := do
  let data ← readRegister chip 0x0736 1
  let current := data.headD 0
  writeRegister chip 0x0736
    [if iqConfig = 0x01 then current &&& 0xFB else current ||| 0x04]

def setPacketParams : Radio Unit := do
  let state ← Program.get
  writeCommand chip 0x8C state.packetParams.toList

end Driver

structure ConfigArgs where
  spreadingFactor : UInt8
  bandwidth : UInt8
  codingRate : UInt8
  preambleLength : UInt16
  payloadLen : UInt8
  crcOn : Bool
  invertIrq : Bool

/-- `PacketParams` as `LoRaConfig` fills it. -/
def ConfigArgs.packetParams (args : ConfigArgs) : CArray 6 :=
  ⟨[(args.preambleLength >>> 8).toUInt8, args.preambleLength.toUInt8,
    -- fixed length with implicit header, or variable length
    if args.payloadLen ≠ 0 then 0x01 else 0x00,
    if args.payloadLen ≠ 0 then args.payloadLen else 0xFF,
    if args.crcOn then 0x01 else 0x00,
    if args.invertIrq then 0x01 else 0x00], rfl⟩

def storeParams (params : CArray 6) : Radio Unit :=
  Program.modify fun state => { state with packetParams := params }

def loRaConfig (chip : Chip) (args : ConfigArgs) : Radio Unit := do
  setStopRxTimerOnPreambleDetect chip false
  setLoRaSymbNumTimeout chip 0
  setPacketType chip 0x01
  setModulationParams chip args.spreadingFactor args.bandwidth args.codingRate 0
  storeParams args.packetParams
  fixInvertedIQ chip (if args.invertIrq then 0x01 else 0x00)
  setPacketParams chip
  setDioIrqParams chip 0x3FF 0 0 0
  setRx chip 0xFFFFFF

def loRaReceive (chip : Chip) (len : Int) : Radio (List UInt8) := do
  let irqRegs ← getIrqStatus chip
  if irqRegs &&& 0x02 ≠ 0 then
    clearIrqStatus chip 0x3FF
    readBuffer chip len
  else pure []

/-- `TX_DONE` or `TIMEOUT` -/
def txEnded (irqStatus : UInt16) : Bool :=
  irqStatus &&& 0x001 ≠ 0 || irqStatus &&& 0x200 ≠ 0

/-- The loop that waits for the end of a transmission; one that goes on for more
than `polls` rounds counts as hanging. -/
def awaitTx (chip : Chip) (polls : Nat) : Radio UInt16 :=
  Program.retry (do
    let irqStatus ← getIrqStatus chip
    pure (if txEnded irqStatus then some irqStatus else none)) polls

/-- Explicit header and the length of this frame. -/
def sendParams (params : CArray 6) (len : Nat) : CArray 6 :=
  (params.set 2 0x00).set 3 (UInt8.ofNat len)

def setActive (active : Bool) : Radio Unit :=
  Program.modify fun state => { state with txActive := active }

def countLost : Radio Unit :=
  Program.modify fun state => { state with txLost := state.txLost + 1 }

/-- The part of `LoRaSend` for a free transmitter. -/
def transmit (chip : Chip) (polls : Nat) (data : List UInt8) (mode : UInt8) :
    Radio Bool := do
  setActive true
  Program.modify fun state =>
    { state with packetParams := sendParams state.packetParams data.length }
  setPacketParams chip
  clearIrqStatus chip 0x3FF
  writeBuffer chip data
  setTx chip 500
  if mode &&& 0x02 ≠ 0 then
    let irqStatus ← awaitTx chip polls
    setActive false
    setRx chip 0xFFFFFF
    pure (irqStatus &&& 0x001 ≠ 0)
  else pure true

def loRaSend (chip : Chip) (polls : Nat) (data : List UInt8) (mode : UInt8) :
    Radio Bool := do
  let state ← Program.get
  let rv ← if state.txActive then pure false
    else transmit chip polls data mode
  if rv then pure true
  else
    countLost
    pure false

end Radio

end Lora32Mqtt
