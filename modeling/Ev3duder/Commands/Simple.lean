import Ev3duder.Packets

namespace Ev3duder

open Data

/-! # Commands of one exchange, and the sweep over file handles -/

def ascii (text : String) : Bytes := text.toList.map fun char => UInt8.ofNat char.toNat

/-- What `rm` and `mkdir_` share: a request that carries a path, and a reply without data. -/
def pathCommand (init : SystemCmd) (path : CString) (writeError readError deniedError success : String) :
    Command Err := do
  match packetAlloc init (path.bytes.length + 1) with
  | none => Proc.crash
  | some request => do
      let request := { request with bytes := path.bytes ++ [0] }
      let stack ← malloc
      match ← exchange request writeError ⟨stack, 0⟩ systemReplySize timeout readError with
      | .error err => return err
      | .ok reply => do
          let type ← reply.type
          if type = vmError then denied reply 0 deniedError
          else failWith success .unk

def rm (path : CString) : Command Err :=
  pathCommand deleteFileInit path "Unable to write DELETE_FILE." "Unable to read DELETE_FILE"
    "`DELETE_FILE` was denied." "`DELETE_FILE` was successful."

def mkdir_ (path : CString) : Command Err :=
  pathCommand createDirInit path "Unable to write CREATE_DIR." "Unable to read CREATE_DIR_REPLY"
    "`CREATE_DIR` was denied." "`CREATE_DIR` was successful."

/-- The loop of `closehnd`: one request and one mark for each handle. -/
def closehndLoop (request : CloseHandle) (reply : Reply) (stop : Int) (hnd : Int) (count : Nat) : Command Err :=
  if hnd < stop then do
    let request := { request with handle := UInt8.ofInt hnd }
    match ← exchange request "Unable to write CLOSE_HANDLE." reply closeHandleReplySize timeout
        "Unable to read CLOSE_HANDLE" with
    | .error err => return err
    | .ok reply => do
        let type ← reply.type
        fwrite (if type = vmOk then ascii "*" else ascii "_")
        fwrite (if (count + 1) % 16 = 0 then ascii "\n" else [])
        closehndLoop request reply stop (hnd + 1) (count + 1)
  else failWith "`closehnd` was successful." .unk
termination_by (stop - hnd).toNat

def closehnd (start stop : Int) : Command Err := do
  match packetAlloc closeHandleInit 0 with
  | none => Proc.crash
  | some request => do
      let heap ← malloc
      let start := if start < 0 then 0 else start
      let stop := if 256 < stop then 256 else stop
      fwrite (ascii "Handle map:\n")
      closehndLoop request ⟨heap, 0⟩ stop start 0

inductive Transport where
  | usb | serial | tcp
deriving DecidableEq, Repr

def tone : Bytes :=
  [0x00, 0x0F, 0x00, 0, 0, 0x80, 0x00, 0x00, 0x94, 0x01, 0x81, 0x02, 0x82, 0xE8, 0x03, 0x82, 0xE8, 0x03]

/-- Without an argument `info` beeps; with one it prints what the library knows, which is left out here. -/
def info (transport : Transport) (arg : Option String) : Command Err :=
  match arg with
  | some arg =>
      if (transport = .usb ∧ arg = "serial") ∨ (transport = .tcp ∧ arg = "ip") then return .unk
      else return .arg
  | none => do
      let res ← ev3Write tone tone.length
      if res < 0 then return .comm
      else failWith "\nAttempting beep.." .unk

end Ev3duder
