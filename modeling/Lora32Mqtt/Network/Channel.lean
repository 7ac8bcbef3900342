import Lora32Mqtt.Lora.Discipline
import Mathlib.Logic.Function.Basic

/-!
# One master and any number of slaves on the radio channel

All nodes run against one true time in microseconds.  A clock is that time plus
a constant, which `settimeofday` replaces; a tick counter counts every ten
milliseconds of it.  A frame reaches the inbox of every other node; a frame that
is never taken out is lost.  Frames carry a tag with the true moments of their
stamps, which no node ever looks at.
-/

namespace Lora32Mqtt

/-- A request, with the moment and the clock reading of its T1 stamp. -/
structure Origin (ι : Type) where
  slave : ι
  moment : Nat
  reading : Int
  deriving DecidableEq

inductive Tag (ι : Type) where
  | request (origin : Origin ι)
  | response (origin : Origin ι) (arrived answered : Nat)
  | other
  deriving DecidableEq

structure Packet (ι : Type) where
  frame : Frame
  tag : Tag ι

structure SlaveNode (ι : Type) where
  task : TxTask
  /-- Slave clock minus true time. -/
  offset : Int
  tickPhase : Nat
  inbox : List (Packet ι)

structure Network (ι : Type) where
  now : Nat
  /-- Master clock minus true time. -/
  masterOffset : Int
  master : RxTask
  /-- The request being answered and the moment of its T2 stamp. -/
  serving : Option (Origin ι × Nat)
  masterInbox : List (Packet ι)
  slaves : ι → SlaveNode ι

inductive NetAction (ι : Type) where
  | elapse (micros : Nat)
  /-- One step of a node; the index says which frame it hears, if any. -/
  | slave (slave : ι) (choice : Option Nat) (env : TaskEnv)
  | master (choice : Option Nat) (env : TaskEnv)

inductive NetEvent (ι : Type) where
  | reading (value : Int)
  | effect (slave : ι) (moment : Nat) (effect : TxEffect)
  /-- A slave processes the answer to a request of `requester`. -/
  | exchange (slave requester : ι) (exchange : Exchange)
  | clockSet (slave : ι) (before after : Int)
  deriving DecidableEq

/-- `xTaskGetTickCount()` of a node at a moment, before it wraps. -/
def SlaveNode.ticks {ι : Type} (node : SlaveNode ι) (moment : Nat) : Nat :=
  (moment + node.tickPhase) / 10000

def SlaveNode.hear {ι : Type} (node : SlaveNode ι) (packet : Packet ι) :
    SlaveNode ι :=
  { node with inbox := node.inbox ++ [packet] }

def heardFrame {ι : Type} (heard : Option (Packet ι)) : Frame :=
  (heard.map Packet.frame).getD silence

@[simp] theorem heardFrame_some {ι : Type} (packet : Packet ι) :
    heardFrame (some packet) = packet.frame := rfl

/-- Take the chosen frame out of an inbox. -/
def takePacket {ι : Type} (inbox : List (Packet ι)) :
    Option Nat → Option (Option (Packet ι) × List (Packet ι))
  | none => some (none, inbox)
  | some index =>
      match inbox[index]? with
      | some packet => some (some packet, inbox.eraseIdx index)
      | none => none

namespace Network

variable {ι : Type}

def masterClock (net : Network ι) : Int := net.now + net.masterOffset

def slaveClock (net : Network ι) (slave : ι) : Int :=
  net.now + (net.slaves slave).offset

/-- Nothing has been sent yet and no task has run. -/
structure Initial (net : Network ι) : Prop where
  masterInbox : net.masterInbox = []
  serving : net.serving = none
  master : net.master.phase = .receive
  fresh : ∀ slave, (net.slaves slave).task.Fresh
  inbox : ∀ slave, (net.slaves slave).inbox = []

/-- The exchange a slave completes when it reads T4 now. -/
def exchangeOf (net : Network ι) (slave : ι) (origin : Origin ι)
    (arrived answered : Nat) : Exchange :=
  { reference := origin.moment + net.masterOffset
    before := net.masterOffset - (origin.reading - origin.moment)
    after := net.masterOffset - (net.slaves slave).offset
    outward := (arrived : Int) - origin.moment
    waiting := (answered : Int) - arrived
    back := (net.now : Int) - answered }

/-- The clock runs on from the value it is set to. -/
def offsetAfter (net : Network ι) (tv : Timeval) : Int :=
  tv.tvSec * 1000000 + tv.tvUsec - net.now

def withMaster (net : Network ι) (next : RxTask)
    (serving : Option (Origin ι × Nat)) (inbox : List (Packet ι)) : Network ι :=
  { net with master := next, serving := serving, masterInbox := inbox }

def fromMaster (net : Network ι) (packet : Packet ι) : Network ι :=
  { net with slaves := fun slave => (net.slaves slave).hear packet }

def masterEnv (net : Network ι) (env : TaskEnv) (heard : Option (Packet ι)) :
    TaskEnv :=
  { env with
    received := heardFrame heard
    clock := toUInt64 net.masterClock }

/-- The master remembers which request is in its buffer. -/
def nextServing (net : Network ι) (phase : RxPhase)
    (heard : Option (Packet ι)) : Option (Origin ι × Nat) :=
  match phase, heard with
  | .respond, some { frame := _, tag := .request origin } =>
      some (origin, net.now)
  | _, _ => none

def responseTag (net : Network ι) : Tag ι :=
  match net.serving with
  | some (origin, arrived) => .response origin arrived net.now
  | none => .other

/-- The master reads its clock when it enters and when it leaves the branch for
a request. -/
def masterStep (net : Network ι) (env : TaskEnv) (heard : Option (Packet ι))
    (inbox : List (Packet ι)) : Network ι × List (NetEvent ι) :=
  let outcome := net.master.step (net.masterEnv env heard)
  let stepped :=
    net.withMaster outcome.1 (net.nextServing outcome.1.phase heard) inbox
  let sent := outcome.2.filterMap RxEffect.sentFrame
  (sent.foldl (fun heardBy frame =>
      heardBy.fromMaster { frame := frame, tag := net.responseTag }) stepped,
    if net.master.phase = .respond ∨ outcome.1.phase = .respond
    then [.reading net.masterClock] else [])

def slaveEnv (net : Network ι) (slave : ι) (env : TaskEnv)
    (heard : Option (Packet ι)) : TaskEnv :=
  { env with
    received := heardFrame heard
    clock := toUInt64 (net.slaveClock slave)
    tick := UInt32.ofNat ((net.slaves slave).ticks net.now) }

@[simp] theorem slaveEnv_received (net : Network ι) (slave : ι)
    (env : TaskEnv) (heard : Option (Packet ι)) :
    (net.slaveEnv slave env heard).received = heardFrame heard := rfl

@[simp] theorem slaveEnv_clock (net : Network ι) (slave : ι) (env : TaskEnv)
    (heard : Option (Packet ι)) :
    (net.slaveEnv slave env heard).clock = toUInt64 (net.slaveClock slave) :=
  rfl

variable [DecidableEq ι]

def setSlave (net : Network ι) (slave : ι) (node : SlaveNode ι) : Network ι :=
  { net with slaves := Function.update net.slaves slave node }

def withTask (net : Network ι) (slave : ι) (next : TxTask)
    (inbox : List (Packet ι)) : Network ι :=
  net.setSlave slave { net.slaves slave with task := next, inbox := inbox }

def setClock (net : Network ι) (slave : ι) (offset : Int) : Network ι :=
  net.setSlave slave { net.slaves slave with offset := offset }

/-- A slave's frame is heard by the master and by the other slaves. -/
def fromSlave (net : Network ι) (slave : ι) (packet : Packet ι) : Network ι :=
  { net with
    masterInbox := net.masterInbox ++ [packet]
    slaves := fun other =>
      if other = slave then net.slaves other
      else (net.slaves other).hear packet }

/-- Carry out one effect of a slave's step. -/
def perform (net : Network ι) (slave : ι) (heard : Option (Packet ι)) :
    TxEffect → Network ι × List (NetEvent ι)
  | .timeRequest frame =>
      (net.fromSlave slave
        { frame := frame
          tag := .request
            { slave := slave, moment := net.now
              reading := net.slaveClock slave } }, [])
  | .timestamp frame =>
      (net.fromSlave slave { frame := frame, tag := .other }, [])
  | .timeResponse _ _ =>
      (net,
        match heard with
        | some { frame := _, tag := .response origin arrived answered } =>
            [.exchange slave origin.slave
              (net.exchangeOf slave origin arrived answered)]
        | _ => [])
  | .settimeofday tv =>
      (net.setClock slave (net.offsetAfter tv),
        [.clockSet slave (net.slaves slave).offset (net.offsetAfter tv)])

/-- Every effect comes with one reading of the slave's clock. -/
def performAll (net : Network ι) (slave : ι) (heard : Option (Packet ι)) :
    List TxEffect → Network ι × List (NetEvent ι)
  | [] => (net, [])
  | effect :: rest =>
      let first := net.perform slave heard effect
      let later := first.1.performAll slave heard rest
      (later.1,
        .reading (net.slaveClock slave) :: .effect slave net.now effect ::
          (first.2 ++ later.2))

def slaveStep (net : Network ι) (slave : ι) (env : TaskEnv)
    (heard : Option (Packet ι)) (inbox : List (Packet ι)) :
    Network ι × List (NetEvent ι) :=
  let outcome := (net.slaves slave).task.step (net.slaveEnv slave env heard)
  (net.withTask slave outcome.1 inbox).performAll slave heard outcome.2

end Network

/-- Any interleaving of the nodes with the passing of time. -/
def loraNetwork (ι : Type) [DecidableEq ι] :
    Machine (Network ι) (NetAction ι) (NetEvent ι) where
  step net
    | .elapse micros => some ({ net with now := net.now + micros }, [])
    | .slave slave choice env =>
        (takePacket (net.slaves slave).inbox choice).map fun taken =>
          net.slaveStep slave env taken.1 taken.2
    | .master choice env =>
        (takePacket net.masterInbox choice).map fun taken =>
          net.masterStep env taken.1 taken.2

def sampleEnv : TaskEnv :=
  { received := silence, clock := 0, tick := 0, sent := true
    residue := List.Vector.replicate 50 0 }

end Lora32Mqtt
