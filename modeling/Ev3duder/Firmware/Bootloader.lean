import Ev3duder.Data.Script
import Ev3duder.Firmware.Crc32
import Ev3duder.Packets

namespace Ev3duder

open Data

/-! # Writing a new firmware into the flash -/

def flashStart : Nat := 0x00000000
def flashSize : Nat := 16 * 1000 * 1024

/-- The verdict on a reply whose contents are not needed: a looped-back request counts as an answer. -/
def bootloaderReply (reply : Reply) (more : Nat) (deniedError : String) : Command Err := do
  let type ← reply.type
  if type ≠ vmOk ∧ type ≠ vmSysRq then denied reply more deniedError
  else return .unk

def bootloaderStep {τ : Type} [Packet τ] (request : Option τ) (writeError readError deniedError : String)
    (milliseconds : Int) (more : Nat) : Command Err :=
  match request with
  | none => Proc.crash
  | some request => do
      let heap ← malloc
      match ← exchange request writeError ⟨heap, 0⟩ systemReplySize milliseconds readError with
      | .error err => return err
      | .ok reply => bootloaderReply reply more deniedError

def bootloaderErase : Command Err :=
  bootloaderStep (packetAlloc fwEraseFlashInit 0) "Unable to write FW_ERASEFLASH."
    "Unable to read FW_ERASEFLASH" "`FW_ERASEFLASH` was denied." (-1) 2

def fwStartDownload (offset length : Nat) : FlashRegion :=
  { fwStartDownloadInit with
    packetLen := UInt16.ofNat (Packet.size FlashRegion + 0 - prefixSize)
    flashStart := UInt32.ofNat offset
    flashLength := UInt32.ofNat length }

def bootloaderStart (offset length : Nat) : Command Err :=
  bootloaderStep ((packetAlloc fwStartDownloadInit 0).map fun request =>
      { request with flashStart := UInt32.ofNat offset, flashLength := UInt32.ofNat length })
    "Unable to write FW_START_DOWNLOAD." "Unable to read FW_START_DOWNLOAD"
    "`FW_START_DOWNLOAD` was denied." (-1) 2

/-- `max_payload`: the packet behind the HID byte takes 1024 bytes. -/
def maxPayload : Nat := 1024 - (Packet.size SystemCmd - prefixSize + 2)

/-- The payload of the next block: from the file while it lasts, zeros from then on.  What lies behind the
block in the buffer stays. -/
def fillBlock (payload : Bytes) (thisBlock : Nat) (fileEnded : Bool) : Command (Bytes × Bool) :=
  if fileEnded then return (List.replicate thisBlock 0 ++ payload.drop thisBlock, true)
  else do
    let data ← fread thisBlock
    if data.length < thisBlock then
      return (data ++ List.replicate (thisBlock - data.length) 0 ++ payload.drop thisBlock, true)
    else return (data ++ payload.drop thisBlock, false)

def withBlock (request : SystemCmd) (thisBlock : Nat) (payload : Bytes) : SystemCmd :=
  { request with
    packetLen := UInt16.ofNat (Packet.size SystemCmd - prefixSize + thisBlock)
    bytes := payload }

def sendLoop (total : Nat) (request : SystemCmd) (reply : Reply) (sentSoFar : Nat) (fileEnded : Bool)
    (crc : UInt32) : Command (Except Err UInt32) :=
  if sentSoFar < total then do
    let remaining := total - sentSoFar
    let thisBlock := if remaining ≤ maxPayload then remaining else maxPayload
    let (payload, fileEnded) ← fillBlock request.bytes thisBlock fileEnded
    let crc := crc32 crc (payload.take thisBlock)
    let request := withBlock request thisBlock payload
    match ← exchange request "Unable to write FW_DOWNLOAD_DATA." reply systemReplySize (-1)
        "Unable to read FW_DOWNLOAD_DATA" with
    | .error err => return .error err
    | .ok reply => do
        match ← bootloaderReply reply 2 "`FW_DOWNLOAD_DATA` was denied." with
        | .unk => sendLoop total request reply (sentSoFar + thisBlock) fileEnded crc
        | err => return .error err
  else return .ok crc
termination_by total - sentSoFar
decreasing_by
  have positive : 0 < maxPayload := by decide
  split <;> omega

/-- The error code and what was stored at `pCrc32`. -/
def bootloaderSend (length : Nat) : Command (Err × UInt32) := do
  match packetAlloc fwDownloadDataInit maxPayload with
  | none => Proc.crash
  | some request => do
      let payload ← malloc
      let heap ← malloc
      let request := { request with bytes := payload.load 0 maxPayload }
      match ← sendLoop length request ⟨heap, 0⟩ 0 false 0 with
      | .error err => return (err, 0)
      | .ok crc => return (.unk, crc)

/-- The verdict on the reply to FW_GETCRC32; here a looped-back request brings no checksum. -/
def checksumReply (reply : Reply) : Command (Err × UInt32) := do
  let type ← reply.type
  if type = vmSysRq then return (.usbLoop, 0)
  else if type ≠ vmOk then do
    let err ← denied reply 2 "`FW_GETCRC32` was denied."
    return (err, 0)
  else do
    let crc ← reply.u32 7
    return (.unk, crc)

def bootloaderChecksum (offset length : Nat) : Command (Err × UInt32) := do
  match packetAlloc fwGetCrc32Init 0 with
  | none => Proc.crash
  | some request => do
      let request := { request with flashStart := UInt32.ofNat offset, flashLength := UInt32.ofNat length }
      let heap ← malloc
      match ← exchange request "Unable to write FW_GETCRC32." ⟨heap, 0⟩ fwGetCrc32ReplySize (-1)
          "Unable to read FW_GETCRC32" with
      | .error err => return (err, 0)
      | .ok reply => checksumReply reply

def bootloaderExit : Command Err := do
  match ← bootloaderStep (packetAlloc fwStartAppInit 0) "Unable to write FW_STARTAPP."
      "Unable to read FW_STARTAPP" "`FW_STARTAPP` was denied." timeout 0 with
  | .unk => failWith "Update mode was exited successfully." .unk
  | err => return err

def bootloaderVerify (localCrc : UInt32) : Command Err := do
  let (err, remoteCrc) ← bootloaderChecksum flashStart flashSize
  match err with
  | .usbLoop => bootloaderExit
  | .unk => if localCrc ≠ remoteCrc then return .io else bootloaderExit
  | err => return err

def bootloaderInstall : Command Err := do
  match ← bootloaderErase with
  | .unk => do
      match ← bootloaderStart flashStart flashSize with
      | .unk => do
          let (err, localCrc) ← bootloaderSend flashSize
          match err with
          | .unk => bootloaderVerify localCrc
          | err => return err
      | err => return err
  | err => return err

/-- No reply after this: the brick reboots. -/
def bootloaderEnter : Command Err := do
  match packetAlloc enterFwUpdateInit 0 with
  | none => Proc.crash
  | some request => do
      let res ← writePacket request
      if res < 0 then failWith "Unable to write ENTERFWUPDATE." .comm
      else failWith "`ENTERFWUPDATE` was successful." .unk

def bootloaderInfo : Command Err := do
  match packetAlloc fwGetVersionInit 0 with
  | none => Proc.crash
  | some request => do
      let heap ← malloc
      match ← exchange request "Unable to write FW_GETVERSION." ⟨heap, 0⟩ fwGetVersionReplySize timeout
          "Unable to read FW_GETVERSION" with
      | .error err => return err
      | .ok reply => do
          let type ← reply.type
          if type = vmSysRq then return .usbLoop
          else if type ≠ vmOk then denied reply 0 "`FW_GETVERSION` was denied."
          else do
            let _ ← reply.u32 7
            let _ ← reply.u32 11
            failWith "`FW_GETVERSION` was successful." .unk

end Ev3duder
