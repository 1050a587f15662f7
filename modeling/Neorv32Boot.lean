import Neorv32Boot.Host.Python
import Neorv32Boot.Lib.Bytes
import Neorv32Boot.Lib.Clocked
import Neorv32Boot.Lib.Crc
import Neorv32Boot.Lib.Duplex
import Neorv32Boot.Lib.Feed
import Neorv32Boot.Lib.Gather
import Neorv32Boot.Lib.Lanes
import Neorv32Boot.Lib.Prog
import Neorv32Boot.Lib.Replace
import Neorv32Boot.Lib.Tape
import Neorv32Boot.Lib.Trans
import Neorv32Boot.Linux.Poll
import Neorv32Boot.Linux.Port
import Neorv32Boot.Sd.Agreement
import Neorv32Boot.Sd.Boot
import Neorv32Boot.Sd.Card
import Neorv32Boot.Sd.Codec
import Neorv32Boot.Sd.Dialogue
import Neorv32Boot.Sd.Dump
import Neorv32Boot.Sd.Fidelity
import Neorv32Boot.Sd.Frame
import Neorv32Boot.Sd.Layout
import Neorv32Boot.Sd.MultiWrite
import Neorv32Boot.Sd.Patch
import Neorv32Boot.Sd.Paths
import Neorv32Boot.Sd.ReadBack
import Neorv32Boot.Sd.Serial
import Neorv32Boot.Sd.Store
import Neorv32Boot.Sd.Windows
import Neorv32Boot.Sdram.Abandon
import Neorv32Boot.Sdram.Bridge
import Neorv32Boot.Sdram.Chip
import Neorv32Boot.Sdram.Ctrl
import Neorv32Boot.Sdram.Invariant
import Neorv32Boot.Sdram.Legal
import Neorv32Boot.Sdram.Memory
import Neorv32Boot.Sdram.Refresh
import Neorv32Boot.Sdram.Serve
import Neorv32Boot.Sdram.Words
import Neorv32Boot.Spi.Addressing
import Neorv32Boot.Spi.AnyCard
import Neorv32Boot.Spi.Card
import Neorv32Boot.Spi.Driver
import Neorv32Boot.Spi.Protocol
import Neorv32Boot.Spi.Rest
import Neorv32Boot.Spi.Runs
import Neorv32Boot.Spi.Sound
import Neorv32Boot.Stage2.Boot
import Neorv32Boot.Stage2.Console
import Neorv32Boot.Stage2.Desk
import Neorv32Boot.Stage2.Endless
import Neorv32Boot.Stage2.Frame
import Neorv32Boot.Stage2.History
import Neorv32Boot.Stage2.Inert
import Neorv32Boot.Stage2.Linux
import Neorv32Boot.Stage2.Modes
import Neorv32Boot.Stage2.OnCard
import Neorv32Boot.Stage2.Party
import Neorv32Boot.Stage2.Program
import Neorv32Boot.Stage2.ReadOut
import Neorv32Boot.Stage2.Receiver
import Neorv32Boot.Stage2.Serial
import Neorv32Boot.Stage2.Served
import Neorv32Boot.Stage2.Session
import Neorv32Boot.Stage2.Upload
import Neorv32Boot.Stage2.World
import Neorv32Boot.Xmodem.Accepted
import Neorv32Boot.Xmodem.Checksum
import Neorv32Boot.Xmodem.Flow
import Neorv32Boot.Xmodem.Link
import Neorv32Boot.Xmodem.Premature
import Neorv32Boot.Xmodem.Receive
import Neorv32Boot.Xmodem.Recovery
import Neorv32Boot.Xmodem.Retries
import Neorv32Boot.Xmodem.Send
import Neorv32Boot.Xmodem.Session
import Neorv32Boot.Xmodem.Surplus
import Neorv32Boot.Xmodem.Verified
