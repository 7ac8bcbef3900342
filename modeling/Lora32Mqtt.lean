import Lora32Mqtt.Base.Machine
import Lora32Mqtt.Base.Episodes
import Lora32Mqtt.Base.Simulation
import Lora32Mqtt.Base.Determined
import Lora32Mqtt.Base.MachineInt
import Lora32Mqtt.Base.ClockExchange
import Lora32Mqtt.Base.LittleEndian
import Lora32Mqtt.Base.CString
import Lora32Mqtt.Base.Numerals
import Lora32Mqtt.Base.Calendar
import Lora32Mqtt.Base.Memory
import Lora32Mqtt.Base.DnsMessage
import Lora32Mqtt.Base.Program
import Lora32Mqtt.Base.FaultyStore
import Lora32Mqtt.Base.Repeated
import Lora32Mqtt.Base.LastWrites
import Lora32Mqtt.Base.RoundedQuotient
import Lora32Mqtt.Time.TimeEsp
import Lora32Mqtt.Time.LocalTime
import Lora32Mqtt.Time.PrintedTime
import Lora32Mqtt.Lora.Messages
import Lora32Mqtt.Time.SyncTime
import Lora32Mqtt.Lora.ClockAdjustment
import Lora32Mqtt.Lora.CorrectionBounds
import Lora32Mqtt.Lora.Replay
import Lora32Mqtt.Lora.Tasks
import Lora32Mqtt.Lora.FrameFormat
import Lora32Mqtt.Lora.Descriptions
import Lora32Mqtt.Lora.Discipline
import Lora32Mqtt.Lora.Promptness
import Lora32Mqtt.Lora.Residue
import Lora32Mqtt.Network.Channel
import Lora32Mqtt.Network.Moves
import Lora32Mqtt.Network.Genuine
import Lora32Mqtt.Network.Steps
import Lora32Mqtt.Network.ForeignResponses
import Lora32Mqtt.Network.Projection
import Lora32Mqtt.Network.ClockAccuracy
import Lora32Mqtt.Radio.Ra01s
import Lora32Mqtt.Radio.PacketParams
import Lora32Mqtt.Radio.ReceiveMode
import Lora32Mqtt.Radio.Reception
import Lora32Mqtt.Radio.DamagedFrames
import Lora32Mqtt.Radio.TransmitTimeout
import Lora32Mqtt.Radio.Commands
import Lora32Mqtt.Radio.Sent
import Lora32Mqtt.Radio.OnAir
import Lora32Mqtt.Radio.Driver
import Lora32Mqtt.Radio.Settings
import Lora32Mqtt.Radio.Started
import Lora32Mqtt.Radio.Nodes
import Lora32Mqtt.Provisioning.UrlDecode
import Lora32Mqtt.Provisioning.UrlDecodeLoop
import Lora32Mqtt.Provisioning.WifiCredentials
import Lora32Mqtt.Provisioning.WebServer
import Lora32Mqtt.Provisioning.Eeprom
import Lora32Mqtt.Provisioning.Station
import Lora32Mqtt.Provisioning.StoredConfiguration
import Lora32Mqtt.Provisioning.DnsServer
import Lora32Mqtt.Provisioning.DnsAnswer
import Lora32Mqtt.Provisioning.AccessPoint
import Lora32Mqtt.Display.Oled
import Lora32Mqtt.Mqtt.Publish
import Lora32Mqtt.Mqtt.Connection
import Lora32Mqtt.Mqtt.Records
import Lora32Mqtt.System.Firmware
import Lora32Mqtt.System.Startup
import Lora32Mqtt.System.Credentials
import Lora32Mqtt.System.Telemetry
