import Ev3duder.Bridge.Client
import Ev3duder.Bridge.Closing
import Ev3duder.Bridge.Isolation
import Ev3duder.Bridge.Reassembly
import Ev3duder.Bridge.Upload
import Ev3duder.Commands.Advance
import Ev3duder.Commands.Bytecode
import Ev3duder.Commands.Files
import Ev3duder.Commands.Handles
import Ev3duder.Commands.Mkrbf
import Ev3duder.Commands.Output
import Ev3duder.Commands.Peeks
import Ev3duder.Commands.Relay
import Ev3duder.Commands.Tunnel
import Ev3duder.Firmware.Detection
import Ev3duder.Firmware.Safety
import Ev3duder.Main.Exec
import Ev3duder.Main.Link
import Ev3duder.Main.Numbers
import Ev3duder.Main.Options
import Ev3duder.Main.Refusals
import Ev3duder.Main.Usage
import Ev3duder.Transport.Addresses
import Ev3duder.Transport.Beacon
import Ev3duder.Transport.Reception
import Ev3duder.Transport.Selection
import Ev3duder.Transport.Sockets
import Ev3duder.Transport.Terminal
import Ev3duder.Uf2.Acceptance
import Ev3duder.Uf2.Ancestors
import Ev3duder.Uf2.Basename
import Ev3duder.Uf2.Containment
import Ev3duder.Uf2.Layout
import Ev3duder.Uf2.Names
import Ev3duder.Uf2.RoundTrip
import Ev3duder.Uf2.Windows
