import Ev3duder.Commands.Framing
import Ev3duder.Commands.Mkrbf
import Ev3duder.Commands.Relay
import Ev3duder.Main.Options

namespace Ev3duder

open Data

/-! # From the command to the exit status

Behind its options `main` looks for a brick, takes the branch of the command, reports how it went and closes the link.
-/

/-- `enum ARGS` -/
inductive Arg where
  | info | up | dl | run | ls | rm | mkdir | closehnd | mkrbf | tunnel | bridge | listen | send | exec | vmexec | wpa2
  | flash | uf2 | nop | end
deriving DecidableEq, Repr

/-- `args`, as far as the loop over it goes. -/
def argNames : List (String × Arg) :=
  [("info", .info), ("up", .up), ("dl", .dl), ("run", .run), ("ls", .ls), ("rm", .rm), ("mkdir", .mkdir),
    ("closehnd", .closehnd), ("mkrbf", .mkrbf), ("tunnel", .tunnel), ("bridge", .bridge), ("listen", .listen),
    ("send", .send), ("exec", .exec), ("vmexec", .vmexec), ("wpa2", .wpa2), ("flash", .flash), ("uf2", .uf2),
    ("nop", .nop)]

def findArg (command : Bytes) : Arg :=
  match argNames.find? fun entry => ascii entry.1 = command with
  | some entry => entry.2
  | none => .end

/-- `offline_args`.  Without a comma in between the two literals are one. -/
def offlineArgs : List Bytes := [ascii "mkrbf" ++ ascii "uf2"]

def commandKind (command : Bytes) (args : List CString) : CommandKind :=
  if command = ascii "flash" ∧ args.head?.map CString.bytes ≠ some (ascii "enter") then .firmware
  else if offlineArgs.contains command then .offline
  else .online

/-- What `main` asks of the system, in order. -/
inductive MainCall where
  | opens (transport : Transport) (firmware found : Bool)
  | transfers (event : Event)
  | opensFile (name : CString) (writing : Bool)
  /-- `fwrite` and `fclose` on the file of this name. -/
  | stores (name : CString) (content : Bytes)
  | closes

structure Machine where
  /-- `handle`, with the functions that `ev3_write` and the others point to. -/
  handle : Option Transport
  session : Session
  calls : List MainCall
  stdout : Bytes
  stderr : Bytes
  usage : Bool

/-- The state in which `main` is entered. -/
def Machine.started (session : Session) : Machine := ⟨none, session, [], [], [], false⟩

/-- What `main` finds around it.  `bridge_mode`, `uf2_pack` and `uf2_unpack` act on a world of their own, so any command
may stand for them here. -/
structure Surroundings where
  opened : Opened
  files : Files
  tmpfile : Bool
  /-- `ev3_error(handle)` -/
  linkError : Session → Option Bytes
  /-- What `printf` prints for a null pointer, if the process goes on behind it. -/
  nullText : Option Bytes
  overflow : Option Int
  bridge : Command Err
  pack : CString → List CString → Command Err
  unpack : File → CString → Bool → Command Err

def calledAll (calls : List MainCall) : Proc Machine Unit :=
  Proc.modify fun machine => { machine with calls := machine.calls ++ calls }

def called (call : MainCall) : Proc Machine Unit := calledAll [call]

def prints (text : Bytes) : Proc Machine Unit :=
  Proc.modify fun machine => { machine with stdout := machine.stdout ++ text }

def complains (text : Bytes) : Proc Machine Unit :=
  Proc.modify fun machine => { machine with stderr := machine.stderr ++ text }

/-- `puts(usage)` -/
def showUsage : Proc Machine Unit := Proc.modify fun machine => { machine with usage := true }

/-- A command runs on the session; what it does over the link is recorded. -/
def runs (command : Command Err) : Proc Machine Err := fun machine =>
  ((command machine.session).1,
    { machine with
      session := (command machine.session).2
      calls := machine.calls ++
        ((command machine.session).2.log.drop machine.session.log.length).map MainCall.transfers })

/-- Without a handle the functions of `ev3_io.h` are null pointers. -/
def overLink (command : Transport → Command Err) : Proc Machine Err := fun machine =>
  match machine.handle with
  | none => (none, machine)
  | some transport => runs (command transport) machine

def closeLink : Proc Machine Unit := do
  if (← Proc.gets Machine.handle).isSome then called .closes

/-- `handle = hid_open(..)`, and the like. -/
def tryOpen (transport : Transport) (firmware found : Bool) : Proc Machine Bool := do
  called (.opens transport firmware found)
  Proc.modify fun machine : Machine => { machine with handle := if found then some transport else none }
  return found

def tryWhere (wanted : Bool) (transport : Transport) (found : Bool) : Proc Machine Bool :=
  if wanted then tryOpen transport false found else return false

def connect (switches : Switches) (opened : Opened) : Proc Machine Bool := do
  if ← tryWhere (switches.hid || !switches.select) .usb opened.hid then return true
  else if ← tryWhere (switches.serial || !switches.select) .serial opened.bt then return true
  else tryWhere (switches.tcp || !switches.select) .tcp opened.tcp

def noAccess : Bytes := ascii "Insufficient access to the usb device might be a reason too, try sudo.\n"

def notFound (text : Bytes) : Proc Machine Bool := do
  prints (text ++ noAccess)
  return false

/-- Whether `main` goes on to the command. -/
def findBrick (switches : Switches) (opened : Opened) : CommandKind → Proc Machine Bool
  | .offline => return true
  | .online => do
      if ← connect switches opened then return true
      else notFound (ascii "EV3 not found. Either plug it into the USB port or pair over Bluetooth.\n\n")
  | .firmware => do
      if ← tryOpen .usb true opened.hidFw then return true
      else
        notFound (ascii
          "No updateable EV3 found. Plug it into a USB port and switch it to firmware update mode.\n\n")

/-- How the `switch` is left. -/
inductive SwitchEnd where
  | breaks (ret : Err)
  | returns (err : Err)
  /-- `exit`, in `assert` -/
  | exits (err : Err)
deriving DecidableEq, Repr

def assertFails : Proc Machine SwitchEnd := do
  closeLink
  return .exits .arg

/-- `ret = ..; break;` -/
def breaksWith (branch : Proc Machine Err) : Proc Machine SwitchEnd := do
  let ret ← branch
  return .breaks ret

def withInput (input : File) (command : Command Err) : Command Err := do
  Proc.modify fun session : Session => { session with input }
  command

def setMainErrmsg (message : String) : Proc Machine Unit :=
  Proc.modify fun machine => { machine with session := { machine.session with errmsg := some message } }

/-- What is behind the last slash. -/
def lastName (path : CString) : CString where
  bytes := (path.bytes.reverse.takeWhile (· ≠ 47)).reverse
  noNul := by
    intro member
    exact path.noNul (List.mem_reverse.mp (List.takeWhile_subset _ (List.mem_reverse.mp member)))

/-- `printf("..%s..", argv[0])` -/
def printsNamed (surroundings : Surroundings) (front : String) (args : List CString) (rest : String) :
    Proc Machine Unit :=
  match args with
  | arg :: _ => prints (ascii front ++ arg.bytes ++ ascii rest)
  | [] =>
      match surroundings.nullText with
      | some text => prints (ascii front ++ text ++ ascii rest)
      | none => Proc.crash

/-- A branch that reads a local file. -/
def fromFile (surroundings : Surroundings) (name : CString) (command : Command Err) : Proc Machine SwitchEnd := do
  called (.opensFile name false)
  match surroundings.files.read name with
  | none => do
      prints (ascii "File <" ++ name.bytes ++ ascii "> doesn't exist.\n")
      return .returns .io
  | some file => breaksWith (overLink fun _ => withInput file command)

def upBranch (surroundings : Surroundings) : List CString → Proc Machine SwitchEnd
  | [loc, rem] => fromFile surroundings loc (up rem)
  | _ => assertFails

def dlInto (surroundings : Surroundings) (rem loc : CString) : Proc Machine SwitchEnd := do
  called (.opensFile loc true)
  if surroundings.files.creates loc then breaksWith (overLink fun _ => dl rem)
  else do
    prints (ascii "File <" ++ loc.bytes ++ ascii "> couldn't be opened for writing.\n")
    return .returns .io

/-- Without an argument `argv[1]` is behind the null pointer that ends the vector. -/
def dlBranch (surroundings : Surroundings) : List CString → Proc Machine SwitchEnd
  | [] => Proc.crash
  | [rem] => dlInto surroundings rem (lastName rem)
  | [rem, loc] => dlInto surroundings rem loc
  | _ => assertFails

/-- A branch with one argument, which it hands over. -/
def oneBranch (command : Transport → CString → Command Err) : List CString → Proc Machine SwitchEnd
  | [arg] => breaksWith (overLink (command · arg))
  | _ => assertFails

def rootPath : CString := ⟨[47], by decide⟩

def lsBranch : List CString → Proc Machine SwitchEnd
  | [] => breaksWith (overLink fun _ => ls rootPath)
  | [rem] => breaksWith (overLink fun _ => ls rem)
  | _ => assertFails

def closehndBranch (surroundings : Surroundings) (args : List CString) : Proc Machine SwitchEnd :=
  if args.length ≤ 1 then breaksWith (overLink fun _ => mainClosehnd surroundings.overflow args) else assertFails

/-- `hid_read` is called on whatever `handle` points to. -/
def listenMode (transport : Transport) : Command Err := if transport = .usb then listenLoop else Proc.crash

def mkrbfBranch (surroundings : Surroundings) : List CString → Proc Machine SwitchEnd
  | cmd :: loc :: _ => do
      called (.opensFile loc true)
      if surroundings.files.creates loc then
        match mkrbf cmd with
        | none => Proc.crash
        | some rbf => do
            called (.stores loc rbf)
            return .returns .unk
      else return .returns .io
  | _ => assertFails

/-- The files that `case ARG_vmexec` opens. -/
def vmexecOpens (files : Files) (args : List CString) : List MainCall :=
  match args with
  | locals :: globals :: infile :: outfile :: _ =>
      if (strtol locals.bytes).2 = locals.bytes ∨ (strtol globals.bytes).2 = globals.bytes then []
      else
        (if infile.bytes = ascii "-" then [] else [.opensFile infile false]) ++
          (if (openInput files infile).isNone ∨ outfile.bytes = ascii "-" ∨ outfile.bytes = ascii "none" then []
          else [.opensFile outfile true])
  | _ => []

def vmexecBranch (surroundings : Surroundings) (args : List CString) : Proc Machine SwitchEnd :=
  if 4 ≤ args.length ∧ args.length ≤ 5 then do
    calledAll (vmexecOpens surroundings.files args)
    breaksWith (overLink fun _ => mainVmexec surroundings.files args)
  else assertFails

/-- The program for the command goes up from a temporary file and is run. -/
def execProgram (rbf : Bytes) (timeout : UInt32) (transport : Transport) : Command Err :=
  withInput { rest := rbf } do
    let ret ← up execName
    if ret ≠ .unk then return ret
    else run transport execName timeout

def execBranch (surroundings : Surroundings) (timeout : UInt32) : List CString → Proc Machine SwitchEnd
  | [] => assertFails
  | cmd :: _ =>
      match mkrbf (execCommand cmd) with
      | none => Proc.crash
      | some rbf =>
          if surroundings.tmpfile then breaksWith (overLink (execProgram rbf timeout))
          else return .returns .io

/-- A command of `flash` without arguments. -/
def flashAlone (command : Command Err) (rest : List CString) : Proc Machine SwitchEnd :=
  if rest = [] then breaksWith (overLink fun _ => command) else assertFails

def flashInstall (surroundings : Surroundings) : List CString → Proc Machine SwitchEnd
  | [loc] => fromFile surroundings loc bootloaderInstall
  | _ => assertFails

def flashBranch (surroundings : Surroundings) : List CString → Proc Machine SwitchEnd
  | [] => assertFails
  | sub :: rest =>
      if sub.bytes = ascii "enter" then flashAlone bootloaderEnter rest
      else if sub.bytes = ascii "install" then flashInstall surroundings rest
      else if sub.bytes = ascii "info" then flashAlone bootloaderInfo rest
      else if sub.bytes = ascii "exit" then flashAlone bootloaderExit rest
      else do
        prints (ascii "<" ++ sub.bytes ++ ascii "> is not a known flash command\n.")
        return .breaks .arg

def uf2PackBranch (surroundings : Surroundings) : List CString → Proc Machine SwitchEnd
  | archive :: brickdir :: file :: files => do
      called (.opensFile archive true)
      if surroundings.files.creates archive then breaksWith (runs (surroundings.pack brickdir (file :: files)))
      else do
        setMainErrmsg "error: cannot open UF2 file for writing"
        return .breaks .io
  | _ => assertFails

def uf2UnpackFrom (surroundings : Surroundings) (archive outdir : CString) (usePaths : Bool) :
    Proc Machine SwitchEnd := do
  called (.opensFile archive false)
  match surroundings.files.read archive with
  | none => do
      setMainErrmsg "error: cannot open UF2 file for reading"
      return .breaks .io
  | some file => breaksWith (runs (surroundings.unpack file outdir usePaths))

def uf2UnpackBranch (surroundings : Surroundings) : List CString → Proc Machine SwitchEnd
  | [archive, outdir] => uf2UnpackFrom surroundings archive outdir false
  | [archive, outdir, paths] =>
      if paths.bytes = ascii "--with-paths" then uf2UnpackFrom surroundings archive outdir true
      else do
        prints (ascii "<" ++ paths.bytes ++ ascii "> is not valid for `uf2 unpack`.\n")
        return .breaks .arg
  | _ => assertFails

def uf2Branch (surroundings : Surroundings) : List CString → Proc Machine SwitchEnd
  | [] => assertFails
  | sub :: rest =>
      if sub.bytes = ascii "pack" then uf2PackBranch surroundings rest
      else if sub.bytes = ascii "unpack" then uf2UnpackBranch surroundings rest
      else do
        prints (ascii "<uf2 " ++ sub.bytes ++ ascii "> hasn't been implemented yet.\n")
        return .breaks .arg

/-- `info` compares its argument with names in ASCII. -/
def latin1 (text : Bytes) : String := String.ofList (text.map fun byte => Char.ofNat byte.toNat)

/-- `switch (i)` in a build without `WPA2_MODE`; `wpa2` has no branch there. -/
def mainSwitch (surroundings : Surroundings) (timeout : UInt32) (args : List CString) : Arg → Proc Machine SwitchEnd
  | .info => breaksWith (overLink fun transport => info transport (args.head?.map fun arg => latin1 arg.bytes))
  | .up => upBranch surroundings args
  | .dl => dlBranch surroundings args
  | .run => oneBranch (fun transport exec => run transport exec timeout) args
  | .ls => lsBranch args
  | .rm => oneBranch (fun _ => rm) args
  | .mkdir => oneBranch (fun _ => mkdir_) args
  | .closehnd => closehndBranch surroundings args
  | .mkrbf => mkrbfBranch surroundings args
  | .tunnel => breaksWith (overLink fun _ => withInput surroundings.files.stdin tunnel)
  | .bridge => breaksWith (overLink fun _ => surroundings.bridge)
  | .listen => breaksWith (overLink listenMode)
  | .send => breaksWith (overLink fun _ => withInput surroundings.files.stdin sendout)
  | .exec => execBranch surroundings timeout args
  | .vmexec => vmexecBranch surroundings args
  | .wpa2 => do
      printsNamed surroundings "<" args "> hasn't been implemented yet.\n"
      return .breaks .arg
  | .flash => flashBranch surroundings args
  | .uf2 => uf2Branch surroundings args
  | .nop => return .returns .unk
  | .end => do
      showUsage
      return .returns .arg

/-- `ev3_error_msgs` -/
def ev3ErrorMsgs : List (Option String) :=
  [some "SUCCESS", some "UNKNOWN_HANDLE: Path doesn't exist", some "HANDLE_NOT_READY", some "CORRUPT_FILE",
    some "NO_HANDLES_AVAILABLE: Path doesn't resolve to a valid file", some "NO_PERMISSION:  File doesn't exist",
    some "ILLEGAL_PATH", some "FILE_EXITS", some "END_OF_FILE",
    some "SIZE_ERROR: Can't write here. Is SD Card properly inserted?", some "UNKNOWN_ERROR: No such directory",
    some "ILLEGAL_FILENAME", some "ILLEGAL_CONNECTION", none]

def vmMessage (errno : Nat) : String :=
  match ev3ErrorMsgs[errno]? with
  | some message => message.getD "-"
  | none => "An unknown error occured"

def usbLoopText : Bytes :=
  ascii "\nError: ev3duder received its own packet instead of a reply from the brick.\n\n" ++
    ascii "If you have plugged the EV3 into a USB 3.0 port (usually red or blue),\n" ++
    ascii "try plugging it into a USB 2.0 only port (usually black or white).\n"

/-- The text about the command, and whether it goes to `stderr`. -/
def reportText (surroundings : Surroundings) (ret : Err) (session : Session) : Bytes × Bool :=
  let errmsg := ascii (session.errmsg.getD "-")
  match ret with
  | .comm => (errmsg ++ ascii " (" ++ (surroundings.linkError session).getD (ascii "-") ++ ascii ")\n", false)
  | .vm => (ascii (vmMessage session.errno) ++ ascii " (" ++ errmsg ++ ascii ")\n", false)
  | .usbLoop => (usbLoopText, true)
  | _ => (if session.errmsg.isSome then errmsg ++ [10] else [], decide (ret = .unk))

def report (surroundings : Surroundings) (ret : Err) : Proc Machine Unit := do
  let told ← Proc.gets fun machine => reportText surroundings ret machine.session
  if told.2 then complains told.1 else prints told.1

def leaveSwitch (surroundings : Surroundings) : SwitchEnd → Proc Machine Err
  | .breaks ret => do
      report surroundings ret
      closeLink
      return ret
  | .returns err => return err
  | .exits err => return err

/-- `main` from the command on. -/
def mainCommand (surroundings : Surroundings) (switches : Switches) (timeout : UInt32) (command : Bytes)
    (args : List CString) : Proc Machine Err := do
  if ← findBrick switches surroundings.opened (commandKind command args) then do
    let left ← mainSwitch surroundings timeout args (findArg command)
    leaveSwitch surroundings left
  else return .comm

/-- The arguments for which `main` prints something about the program, and nothing else. -/
def asksAbout : List CString → Bool
  | [_, arg] => (["-h", "--help", "/?", "--printexits", "--version"].map ascii).contains arg.bytes
  | _ => false

/-- What is left for the command behind the options. -/
def OptionState.args (state : OptionState) : List CString := (state.strings.drop (state.argv + 2)).map cstr

/-- `main`.  What `--help`, `--printexits` and `--version` print is left out. -/
def main (surroundings : Surroundings) (argv : List CString) : Proc Machine Err := fun machine =>
  if asksAbout argv then (some .unk, { machine with usage := true })
  else
    match mainOptions (.started argv) with
    | (none, _) => (none, machine)
    | (some (some err), options) =>
        (some err, { machine with stderr := machine.stderr ++ options.stderr, usage := options.usage })
    | (some none, options) =>
        match options.argument 1 with
        | .text command =>
            mainCommand surroundings options.switches options.params.timeout command options.args machine
        | _ => (none, machine)

end Ev3duder
