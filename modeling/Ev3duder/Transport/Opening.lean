import Ev3duder.Data.Triples
import Ev3duder.Transport.Beacon

namespace Ev3duder

open Data

/-! # `tcp_open` and what it holds

One socket at a time: a UDP socket for the search, and after it one for the connection.  The handle is allocated first.
A run that stores outside of an object ends there.
-/

structure Address where
  host : UInt32
  port : UInt16
deriving DecidableEq, Repr

inductive SocketUse where
  | binds
  | sets
  | receives
  | sends (bytes : Bytes) (address : Address)
  | connects (address : Address)
  | waits
  | shuts
deriving DecidableEq, Repr

inductive NetCall where
  | allocates
  | frees
  | socket (granted : Option Nat)
  | uses (fd : Nat) (use : SocketUse)
  | closes (fd : Nat)
deriving DecidableEq, Repr

/-- What the network and the kernel answer. -/
structure Network where
  /-- Whether the coming calls of `socket` succeed. -/
  granted : List Bool := []
  bound : Bool := true
  /-- What `recvfrom` brings to the search, and from where; nothing when the time is over. -/
  incoming : List (Option (Bytes × Address)) := []
  waved : Bool := true
  /-- `connect` succeeds at once, or it completes in time and `SO_ERROR` is this. -/
  connected : Bool := false
  soError : Option Nat := some 0
  /-- The stream is broken when the request goes out: `connect` gave up at once, after which the socket counts as
  writable and `SO_ERROR` is 0, or the peer has closed and reset the connection. -/
  broken : Bool := false
  asked : Bool := true
  confirmation : Option Bytes := none
  next : Nat := 3
  calls : List NetCall := []

namespace Network

def called (call : NetCall) : Proc Network Unit :=
  Proc.modify fun network => { network with calls := network.calls ++ [call] }

def socket : Proc Network (Option Nat) := fun network =>
  let granted := if network.granted.headD true then some network.next else none
  (some granted, { network with
    granted := network.granted.tail
    next := network.next + 1
    calls := network.calls ++ [.socket granted] })

end Network

def ipField : HandleField := ⟨23, 48⟩

def tcpPort : Nat := 5555

/-- `strncpy`: up to the size of the field, the rest of it zero. -/
def strncpy (field : HandleField) (text : Bytes) (handle : Memory) : Memory :=
  handle.storeAt field.offset (text.take field.size ++ List.replicate (field.size - text.length) 0)

/-- `inet_ntop` for IPv4; the first byte in memory is the first number. -/
def inetNtop (host : UInt32) : Bytes :=
  (List.intercalate [46] ((leBytes 4 host.toNat).map fun byte => (numeral 10 byte.toNat).map decimalChar))

/-- The handle for an address that was given as such. -/
def directHandle (serial : CString) (handle : Memory) : Memory :=
  let handle := strncpy serialField (ascii "[n/a]") (strncpy protocolField (ascii "[n/a]")
    (strncpy nameField (ascii "[n/a]") handle))
  strncpy ipField serial.bytes (handle.storeAt portField.offset (leBytes 4 tcpPort))

/-- The datagram stays in the buffer, its NUL included, and its values in their fields. -/
def DatagramFits (datagram : Bytes) : Prop := (heard datagram).length < datagramSize ∧ ValuesFit datagram

instance (datagram : Bytes) : Decidable (DatagramFits datagram) :=
  inferInstanceAs (Decidable (_ ∧ ∀ pair ∈ beaconFields.zip (beaconValues datagram), _ ≤ _))

/-- The loop over the datagrams. -/
def tcpSearch (fd : Nat) (serial : Option CString) (state : Discovery) :
    List (Option (Bytes × Address)) → Proc Network (Option (Discovery × Address))
  | [] | none :: _ => do
      Network.called (.uses fd .sets)
      Network.called (.uses fd .receives)
      return none
  | some (datagram, sender) :: later => do
      Network.called (.uses fd .sets)
      Network.called (.uses fd .receives)
      if ¬ DatagramFits datagram then Proc.crash
      else if (state.hear datagram).satisfied serial then return some (state.hear datagram, sender)
      else tcpSearch fd serial (state.hear datagram) later

/-- What `tcp_open` returns, and where it has connected to. -/
structure TcpOpened where
  fd : Nat
  handle : Memory
  address : Address

/-- From the second `socket` on, whose result is not looked at: `FD_SET` is undefined for -1. -/
def tcpConnect (state : Discovery) (address : Address) : Proc Network (Option TcpOpened) := do
  match ← Network.socket with
  | none => Proc.crash
  | some fd => do
      Network.called (.uses fd .sets)
      Network.called (.uses fd (.connects address))
      Network.called (.uses fd .waits)
      Network.called (.uses fd .sets)
      let failed ← Proc.gets fun network => !network.connected && network.soError ≠ some 0
      if failed then do
        Network.called (.closes fd)
        return none
      -- `sendto` on a broken stream raises SIGPIPE
      else if ← Proc.gets Network.broken then Proc.crash
      else do
        Network.called (.uses fd (.sends state.request address))
        if ← Proc.gets fun network => !network.asked then do
          Network.called (.closes fd)
          return none
        else do
          Network.called (.uses fd .receives)
          match ← Proc.gets Network.confirmation with
          | none => do
              Network.called (.closes fd)
              return none
          | some confirmation =>
              -- the confirmation goes into the same buffer, and a NUL behind it
              if (heard confirmation).length < datagramSize then return some ⟨fd, state.handle, address⟩
              else Proc.crash

/-- `htons(fdp->tcp_port)`, in the order of the host. -/
def handlePort (handle : Memory) : UInt16 := UInt16.ofNat (leValue (handle.load portField.offset 4))

def tcpDiscover (serial : Option CString) (state : Discovery) : Proc Network (Option TcpOpened) := do
  let incoming ← Proc.gets Network.incoming
  match ← Network.socket with
  | none => return none
  | some fd => do
      Network.called (.uses fd .binds)
      if ← Proc.gets fun network => !network.bound then do
        Network.called (.closes fd)
        return none
      else do
        match ← tcpSearch fd serial state incoming with
        | none => do
            Network.called (.closes fd)
            return none
        | some (state, sender) => do
            Network.called (.uses fd (.sends [0] sender))
            Network.called (.closes fd)
            if ← Proc.gets fun network => !network.waved then return none
            else
              tcpConnect { state with handle := state.handle.storeAt ipField.offset (inetNtop sender.host ++ [0]) }
                ⟨sender.host, handlePort state.handle⟩

/-- `tcp_open`; `inetPton` is the library's, and `junk` what is in the two objects. -/
def tcpOpen (inetPton : CString → Option UInt32) (junk : Memory × Memory) (serial : Option CString) :
    Proc Network (Option TcpOpened) := do
  Network.called .allocates
  match serial with
  | some serial =>
      if 46 ∈ serial.bytes then
        match inetPton serial with
        | none => return none
        | some host => tcpConnect ⟨junk.1, directHandle serial junk.2, []⟩ ⟨host, UInt16.ofNat tcpPort⟩
      else tcpDiscover (some serial) ⟨junk.1, junk.2, []⟩
  | none => tcpDiscover none ⟨junk.1, junk.2, []⟩

def tcpClose (opened : TcpOpened) : Proc Network Unit := do
  Network.called (.uses opened.fd .shuts)
  Network.called (.closes opened.fd)
  Network.called .frees

/-- The allocated handle, and the open socket. -/
structure Holding where
  handle : Bool
  socket : Option Nat
deriving DecidableEq, Repr

/-- Only an open socket is used, and another one is opened only when it is closed. -/
def Holding.after : Holding → NetCall → Option Holding
  | ⟨false, none⟩, .allocates => some ⟨true, none⟩
  | ⟨true, none⟩, .frees => some ⟨false, none⟩
  | ⟨true, none⟩, .socket granted => some ⟨true, granted⟩
  | ⟨true, some fd⟩, .uses used _ => if used = fd then some ⟨true, some fd⟩ else none
  | ⟨true, some fd⟩, .closes closed => if closed = fd then some ⟨true, none⟩ else none
  | _, _ => none

def held (calls : List NetCall) : Option Holding := calls.foldlM Holding.after ⟨false, none⟩

/-- What is told to the network: where it connects, and what it sends. -/
def NetCall.talks : NetCall → Bool
  | .uses _ (.sends ..) | .uses _ (.connects _) => true
  | _ => false

structure Holds (state : Holding) (talk : List NetCall) (network : Network) : Prop where
  held : held network.calls = some state
  talk : network.calls.filter NetCall.talks = talk

section Holds

variable {state next : Holding} {fd : Nat} {talk : List NetCall} {died : Network → Prop}

theorem holds_snoc {network : Network} {call : NetCall} (holds : Holds state talk network)
    (allowed : state.after call = some next) :
    Holds next (talk ++ [call].filter NetCall.talks) { network with calls := network.calls ++ [call] } where
  held := by
    rw [held, List.foldlM_append, ← held, holds.held]
    simpa using allowed
  talk := by rw [List.filter_append, holds.talk]

theorem ensures_called {call : NetCall} (quiet : call.talks = false) (allowed : state.after call = some next) :
    Proc.Ensures (Holds state talk) (Network.called call) (fun _ => Holds next talk) died := by
  refine Proc.ensures_run (fun _ => rfl) fun _ holds => ?_
  have after := holds_snoc holds allowed
  rwa [List.filter_cons_of_neg (by simp [quiet]), List.filter_nil, List.append_nil] at after

theorem ensures_uses {use : SocketUse} (quiet : (NetCall.uses fd use).talks = false) :
    Proc.Ensures (Holds ⟨true, some fd⟩ talk) (Network.called (.uses fd use))
      (fun _ => Holds ⟨true, some fd⟩ talk) died :=
  ensures_called quiet (if_pos rfl)

theorem ensures_talks {use : SocketUse} (talks : (NetCall.uses fd use).talks = true) :
    Proc.Ensures (Holds ⟨true, some fd⟩ talk) (Network.called (.uses fd use))
      (fun _ => Holds ⟨true, some fd⟩ (talk ++ [.uses fd use])) died := by
  refine Proc.ensures_run (fun _ => rfl) fun _ holds => ?_
  have after := @holds_snoc _ ⟨true, some fd⟩ _ _ (.uses fd use) holds (if_pos rfl)
  rwa [List.filter_cons_of_pos talks, List.filter_nil] at after

theorem ensures_closes :
    Proc.Ensures (Holds ⟨true, some fd⟩ talk) (Network.called (.closes fd)) (fun _ => Holds ⟨true, none⟩ talk) died :=
  ensures_called rfl (if_pos rfl)

theorem ensures_socket :
    Proc.Ensures (Holds ⟨true, none⟩ talk) Network.socket
      (fun granted network => Holds ⟨true, granted⟩ talk network ∧ network.calls.getLast? = some (.socket granted))
      died := by
  refine Proc.ensures_run (fun _ => rfl) fun network holds => ?_
  have after := @holds_snoc ⟨true, none⟩ _ _ _
    (.socket (if network.granted.headD true then some network.next else none)) holds rfl
  rw [List.filter_cons_of_neg (by simp [NetCall.talks]), List.filter_nil, List.append_nil] at after
  exact ⟨⟨after.held, after.talk⟩, List.getLast?_concat⟩

theorem ensures_gets {α : Type} {before : Network → Prop} (view : Network → α) :
    Proc.Ensures before (Proc.gets view) (fun got network => before network ∧ got = view network) died :=
  Proc.ensures_run (fun _ => rfl) fun _ start => ⟨start, rfl⟩

end Holds

theorem inetNtop_length (host : UInt32) : (inetNtop host).length ≤ 15 := by
  have short (byte : UInt8) : ((numeral 10 byte.toNat).map decimalChar).length ≤ 3 := by
    rw [List.length_map]
    exact numeral_length (by decide) (by decide) (Nat.lt_trans byte.toNat_lt (by decide))
  obtain ⟨first, second, third, fourth, bytes⟩ : ∃ first second third fourth,
      leBytes 4 host.toNat = [first, second, third, fourth] := ⟨_, _, _, _, rfl⟩
  have parts := short first
  have parts2 := short second
  have parts3 := short third
  have parts4 := short fourth
  rw [inetNtop, bytes]
  simp only [List.map_cons, List.map_nil, List.intercalate, List.intersperse, List.flatten_cons, List.flatten_nil,
    List.length_append, List.length_cons, List.length_nil] at *
  omega

/-- What lies behind the address stays as it is. -/
theorem ip_apart {handle : Memory} {bytes : Bytes} (fits : bytes.length ≤ ipField.size) {start : Nat}
    (behind : ipField.offset + ipField.size ≤ start) (count : Nat) :
    (handle.storeAt ipField.offset bytes).load start count = handle.load start count :=
  List.map_congr_left fun index _ => Memory.storeAt_after (by omega)

theorem port_apart {handle : Memory} {bytes : Bytes} (fits : bytes.length ≤ ipField.size) :
    handlePort (handle.storeAt ipField.offset bytes) = handlePort handle := by
  rw [handlePort, ip_apart fits (by decide), handlePort]

theorem inetNtop_fits (host : UInt32) : (inetNtop host ++ [0]).length ≤ ipField.size := by
  have short := inetNtop_length host
  show (inetNtop host ++ [0]).length ≤ 48
  rw [List.length_append, List.length_singleton]
  omega

theorem directHandle_port (serial : CString) (handle : Memory) :
    handlePort (directHandle serial handle) = UInt16.ofNat tcpPort := by
  have fits : (serial.bytes.take ipField.size ++ List.replicate (ipField.size - serial.bytes.length) 0).length ≤
      ipField.size := by
    rw [List.length_append, List.length_take, List.length_replicate]
    omega
  rw [directHandle, strncpy, port_apart fits, handlePort]
  exact congrArg (fun bytes => UInt16.ofNat (leValue bytes)) Memory.storeAt_load

/-- What the calls of `recvfrom` bring, without where it is from. -/
def datagrams (incoming : List (Option (Bytes × Address))) : List (Option Bytes) := incoming.map (Option.map Prod.fst)

/-- The search goes on up to this datagram, and ends on it. -/
def SearchEnds (serial : Option CString) (start : Discovery) (incoming : List (Option (Bytes × Address)))
    (state : Discovery) (sender : Address) : Prop :=
  ∃ before datagram later, incoming = before ++ some (datagram, sender) :: later ∧
    (discover serial (datagrams before) start).1 = .waiting ∧
    discover serial (datagrams incoming) start = (.found datagram, state) ∧
    ∃ held, endsSearch serial held (beaconValues datagram) = true

/-- How the brick was reached: at the address that was given, or at the one the datagram came from that ends `discover`.
That datagram names the serial, or nothing at all. -/
inductive Reached (inetPton : CString → Option UInt32) (serial : Option CString) (start : Discovery)
    (incoming : List (Option (Bytes × Address))) : List NetCall → Bytes → TcpOpened → Prop where
  | direct {text : CString} {request : Bytes} {opened : TcpOpened} (given : serial = some text)
      (dotted : 46 ∈ text.bytes)
      (host : inetPton text = some opened.address.host) (handle : opened.handle = directHandle text start.handle)
      (asks : request = { start with handle := opened.handle }.request) :
      Reached inetPton serial start incoming [] request opened
  | found {udp : Nat} {state : Discovery} {sender : Address} {request : Bytes} {opened : TcpOpened}
      (plain : ∀ text, serial = some text → 46 ∉ text.bytes) (ends : SearchEnds serial start incoming state sender)
      (host : opened.address.host = sender.host)
      (handle : opened.handle = state.handle.storeAt ipField.offset (inetNtop sender.host ++ [0]))
      (asks : request = { state with handle := opened.handle }.request) :
      Reached inetPton serial start incoming [.uses udp (.sends [0] sender)] request opened

/-- With a handle goes its socket: the request went over it, to the address it was connected to before, and nothing
else was said over it.  Without one no socket is left.  Either way the allocated handle is held. -/
def Returned (reached : List NetCall → Bytes → TcpOpened → Prop) (result : Option TcpOpened) (network : Network) :
    Prop :=
  match result with
  | none => ∃ talk, Holds ⟨true, none⟩ talk network
  | some opened => ∃ wave request, reached wave request opened ∧ handlePort opened.handle = opened.address.port ∧
      Holds ⟨true, some opened.fd⟩ (wave ++ [.uses opened.fd (.connects opened.address),
        .uses opened.fd (.sends request opened.address)]) network

/-- What a run dies of: the second `socket`, a request on a broken stream, or something received that is too long. -/
inductive Lost (incoming : List (Option (Bytes × Address))) (network : Network) : Prop where
  | refused (held : held network.calls = some ⟨true, none⟩) (last : network.calls.getLast? = some (.socket none))
  | broken {fd : Nat} (held : held network.calls = some ⟨true, some fd⟩) (broken : network.broken = true)
  | datagram {fd : Nat} {datagram : Bytes} {sender : Address} (held : held network.calls = some ⟨true, some fd⟩)
      (came : some (datagram, sender) ∈ incoming) (outside : ¬ DatagramFits datagram)
  | confirmation {fd : Nat} {confirmation : Bytes} (held : held network.calls = some ⟨true, some fd⟩)
      (came : network.confirmation = some confirmation) (outside : datagramSize ≤ confirmation.length)

section Open

variable {incoming : List (Option (Bytes × Address))} {wave : List NetCall}
  {reached : List NetCall → Bytes → TcpOpened → Prop}

/-- A socket that is closed leaves the handle alone. -/
theorem ensures_gives_up {fd : Nat} {talk : List NetCall} :
    Proc.Ensures (Holds ⟨true, some fd⟩ talk) (do
      Network.called (.closes fd)
      return none) (Returned reached) (Lost incoming) :=
  Proc.ensures_bind ensures_closes fun _ => Proc.ensures_pure fun _ holds => ⟨talk, holds⟩

theorem tcpConnect_returns {state : Discovery} {address : Address} (port : handlePort state.handle = address.port)
    (arrived : ∀ fd, reached wave state.request ⟨fd, state.handle, address⟩) :
    Proc.Ensures (Holds ⟨true, none⟩ wave) (tcpConnect state address) (Returned reached) (Lost incoming) := by
  refine Proc.ensures_bind ensures_socket fun granted => ?_
  cases granted with
  | none => exact Proc.ensures_crash fun _ last => .refused last.1.held last.2
  | some fd =>
      refine Proc.ensures_bind ((ensures_uses rfl).strengthen fun _ last => last.1) fun _ => ?_
      refine Proc.ensures_bind (ensures_talks rfl) fun _ => ?_
      refine Proc.ensures_bind (ensures_uses rfl) fun _ => ?_
      refine Proc.ensures_bind (ensures_uses rfl) fun _ => ?_
      refine Proc.ensures_bind (ensures_gets _) fun failed => ?_
      refine Proc.ensures_ite (fun _ => ensures_gives_up.strengthen fun _ got => got.1) fun _ => ?_
      refine Proc.ensures_bind (ensures_gets _) fun broken => ?_
      refine Proc.ensures_ite (fun broke => ?_) fun _ => ?_
      · refine Proc.ensures_crash ?_
        rintro network ⟨⟨holds, _⟩, rfl⟩
        exact .broken holds.held broke
      refine Proc.ensures_bind ((ensures_talks rfl).strengthen fun _ got => got.1.1) fun _ => ?_
      refine Proc.ensures_bind (ensures_gets _) fun refused => ?_
      refine Proc.ensures_ite (fun _ => ensures_gives_up.strengthen fun _ got => got.1) fun _ => ?_
      refine Proc.ensures_bind ((ensures_uses rfl).strengthen fun _ got => got.1) fun _ => ?_
      refine Proc.ensures_bind (ensures_gets _) fun confirmation => ?_
      cases confirmation with
      | none => exact ensures_gives_up.strengthen fun _ got => got.1
      | some confirmation =>
          refine Proc.ensures_ite (fun _ => ?_) fun full => ?_
          · refine Proc.ensures_pure fun _ got => ⟨wave, state.request, arrived fd, port, ?_⟩
            have holds := got.1
            rw [List.append_assoc] at holds
            exact holds
          · refine Proc.ensures_crash fun _ got => .confirmation got.1.held got.2.symm ?_
            rw [heard, List.length_take] at full
            omega

/-- A datagram that does not satisfy the search is passed over. -/
theorem searchEnds_cons {serial : Option CString} {state last : Discovery} {datagram : Bytes} {passing sender : Address}
    {later : List (Option (Bytes × Address))} (unsatisfied : ¬ (state.hear datagram).satisfied serial = true)
    (ends : SearchEnds serial (state.hear datagram) later last sender) :
    SearchEnds serial state (some (datagram, passing) :: later) last sender := by
  have passed (rest : List (Option (Bytes × Address))) :
      discover serial (datagrams (some (datagram, passing) :: rest)) state =
        discover serial (datagrams rest) (state.hear datagram) := by
    rw [datagrams, List.map_cons, Option.map_some, discover, if_neg unsatisfied, datagrams]
  obtain ⟨before, found, behind, split, waited, search, named⟩ := ends
  refine ⟨some (datagram, passing) :: before, found, behind, ?_, ?_, (passed _).trans search, named⟩
  · rw [split, List.cons_append]
  · rw [passed]
    exact waited

theorem lost_cons {arrival : Option (Bytes × Address)} {network : Network} (lost : Lost incoming network) :
    Lost (arrival :: incoming) network := by
  cases lost with
  | refused held last => exact .refused held last
  | broken held broken => exact .broken held broken
  | datagram held came outside => exact .datagram held (List.mem_cons_of_mem _ came) outside
  | confirmation held came outside => exact .confirmation held came outside

theorem tcpSearch_finds (fd : Nat) (serial : Option CString) (state : Discovery)
    (incoming : List (Option (Bytes × Address))) :
    Proc.Ensures (Holds ⟨true, some fd⟩ []) (tcpSearch fd serial state incoming)
      (fun found network => Holds ⟨true, some fd⟩ [] network ∧ ∀ last sender, found = some (last, sender) →
        SearchEnds serial state incoming last sender) (Lost incoming) := by
  induction incoming generalizing state with
  | nil =>
      refine Proc.ensures_bind (ensures_uses rfl) fun _ => Proc.ensures_bind (ensures_uses rfl) fun _ => ?_
      exact Proc.ensures_pure fun _ holds => ⟨holds, nofun⟩
  | cons arrival later ih =>
      cases arrival with
      | none =>
          refine Proc.ensures_bind (ensures_uses rfl) fun _ => Proc.ensures_bind (ensures_uses rfl) fun _ => ?_
          exact Proc.ensures_pure fun _ holds => ⟨holds, nofun⟩
      | some arrival =>
          obtain ⟨datagram, sender⟩ := arrival
          refine Proc.ensures_bind (ensures_uses rfl) fun _ => Proc.ensures_bind (ensures_uses rfl) fun _ => ?_
          refine Proc.ensures_ite (fun outside => ?_) fun fits => ?_
          · exact Proc.ensures_crash fun _ holds => .datagram holds.held List.mem_cons_self outside
          have fit := (not_not.mp fits).2
          refine Proc.ensures_ite (fun satisfied => ?_) fun unsatisfied => ?_
          · refine Proc.ensures_pure fun _ holds => ⟨holds, ?_⟩
            rintro _ _ ⟨⟩
            have named := satisfied
            rw [hear_satisfied fit] at named
            exact ⟨[], datagram, later, rfl, rfl, discover_found _ satisfied, _, named⟩
          · refine Proc.Ensures.widen ((ih (state.hear datagram)).weaken fun found _ searched => ⟨searched.1, ?_⟩)
              fun _ => lost_cons
            exact fun last sender same => searchEnds_cons unsatisfied (searched.2 last sender same)

theorem tcpDiscover_returns {inetPton : CString → Option UInt32} {serial : Option CString}
    (plain : ∀ text, serial = some text → 46 ∉ text.bytes) (state : Discovery)
    (incoming : List (Option (Bytes × Address))) :
    Proc.Ensures (fun network => Holds ⟨true, none⟩ [] network ∧ network.incoming = incoming)
      (tcpDiscover serial state) (Returned (Reached inetPton serial state incoming)) (Lost incoming) := by
  have asked : Proc.Ensures (fun network => Holds ⟨true, none⟩ [] network ∧ network.incoming = incoming)
      (Proc.gets Network.incoming) (fun came network => Holds ⟨true, none⟩ [] network ∧ came = incoming)
      (Lost incoming) :=
    Proc.ensures_run (fun _ => rfl) fun _ begun => begun
  refine Proc.ensures_bind asked fun came => ?_
  rintro network ⟨begun, rfl⟩
  refine Proc.ensures_bind ensures_socket (fun granted => ?_) network begun
  cases granted with
  | none => exact Proc.ensures_pure fun _ last => ⟨[], last.1⟩
  | some fd =>
      refine Proc.ensures_bind ((ensures_uses rfl).strengthen fun _ last => last.1) fun _ => ?_
      refine Proc.ensures_bind (ensures_gets _) fun taken => ?_
      refine Proc.ensures_ite (fun _ => ensures_gives_up.strengthen fun _ got => got.1) fun _ => ?_
      refine Proc.ensures_bind ((tcpSearch_finds fd serial state came).strengthen fun _ got => got.1) fun found => ?_
      cases found with
      | none => exact ensures_gives_up.strengthen fun _ searched => searched.1
      | some found =>
          obtain ⟨last, sender⟩ := found
          rintro network ⟨holds, searched⟩
          refine Proc.ensures_bind (ensures_talks rfl) (fun _ => ?_) network holds
          refine Proc.ensures_bind ensures_closes fun _ => ?_
          refine Proc.ensures_bind (ensures_gets _) fun failed => ?_
          refine Proc.ensures_ite (fun _ => Proc.ensures_pure fun _ got => ⟨_, got.1⟩) fun _ => ?_
          have ends := searched last sender rfl
          refine (tcpConnect_returns (port_apart ?_) fun fd => .found plain ends rfl rfl rfl).strengthen
            fun _ got => got.1
          exact inetNtop_fits sender.host

/-- `tcp_close` gives back what a successful `tcp_open` holds. -/
theorem tcpClose_releases {opened : TcpOpened} {talk : List NetCall} :
    Proc.Ensures (Holds ⟨true, some opened.fd⟩ talk) (tcpClose opened) (fun _ => Holds ⟨false, none⟩ talk)
      fun _ => False := by
  refine Proc.ensures_bind (ensures_uses rfl) fun _ => ?_
  exact Proc.ensures_bind ensures_closes fun _ => ensures_called rfl rfl

theorem tcpOpen_returns (inetPton : CString → Option UInt32) (junk : Memory × Memory) (serial : Option CString)
    (incoming : List (Option (Bytes × Address))) :
    Proc.Ensures (fun network => Holds ⟨false, none⟩ [] network ∧ network.incoming = incoming)
      (tcpOpen inetPton junk serial) (Returned (Reached inetPton serial ⟨junk.1, junk.2, []⟩ incoming))
      (Lost incoming) := by
  have allocated : Proc.Ensures (fun network => Holds ⟨false, none⟩ [] network ∧ network.incoming = incoming)
      (Network.called .allocates) (fun _ network => Holds ⟨true, none⟩ [] network ∧ network.incoming = incoming)
      (Lost incoming) :=
    Proc.ensures_run (fun _ => rfl) fun _ begun => ⟨@holds_snoc _ _ _ _ .allocates begun.1 rfl, begun.2⟩
  refine Proc.ensures_bind allocated fun _ => ?_
  cases serial with
  | none =>
      refine tcpDiscover_returns ?_ _ _
      rintro _ ⟨⟩
  | some text =>
      refine Proc.ensures_ite (fun dotted => ?_) fun plain => ?_
      · cases parsed : inetPton text with
        | none => exact Proc.ensures_pure fun _ holds => ⟨[], holds.1⟩
        | some host =>
            exact (tcpConnect_returns (directHandle_port text _) fun fd => .direct rfl dotted parsed rfl rfl).strengthen
              fun _ begun => begun.1
      · refine tcpDiscover_returns ?_ _ _
        rintro _ ⟨⟩
        exact plain

/-- Every run of `tcp_open`, whatever the network and the kernel answer, and `tcp_close` after it. -/
theorem tcpOpen_holds (inetPton : CString → Option UInt32) (junk : Memory × Memory) (serial : Option CString)
    (network : Network) :
    Proc.Ends (tcpOpen inetPton junk serial) { network with calls := [] }
        (Returned (Reached inetPton serial ⟨junk.1, junk.2, []⟩ network.incoming)) (Lost network.incoming) ∧
      ∀ opened final, tcpOpen inetPton junk serial { network with calls := [] } = (some (some opened), final) →
        held (tcpClose opened final).2.calls = some ⟨false, none⟩ := by
  have ends := tcpOpen_returns inetPton junk serial network.incoming { network with calls := [] } ⟨⟨rfl, rfl⟩, rfl⟩
  refine ⟨ends, fun opened final run => ?_⟩
  rw [Proc.Ends, run] at ends
  obtain ⟨wave, request, _, _, holds⟩ := ends
  exact (tcpClose_releases final holds).held

end Open

/-- The strings of the handle that a beacon is read into. -/
def Beacon.handle (beacon : Beacon) : TcpHandle where
  serial := beacon.serial
  protocol := ⟨ascii "EV3", factoryName_noNul⟩
  serialFits := Nat.lt_succ_of_le beacon.serialFits
  protocolFits := by decide +kernel

theorem searchEnds_first {beacon : Beacon} (whole : 32 ∉ beacon.name.bytes) {serial : Option CString}
    (asked : serial = none ∨ serial = some beacon.serial) {start state : Discovery} {announcer sender : Address}
    {later : List (Option (Bytes × Address))}
    (ends : SearchEnds serial start (some (beacon.text, announcer) :: later) state sender) :
    sender = announcer ∧ state = start.hear beacon.text := by
  have read := beacon_held whole start
  have satisfied : (start.hear beacon.text).satisfied serial = true := by
    rcases asked with rfl | rfl
    · rfl
    · exact decide_eq_true read.serial
  obtain ⟨before, datagram, behind, split, waited, search, _⟩ := ends
  cases before with
  | nil =>
      cases split
      rw [datagrams, List.map_cons, Option.map_some, discover_found _ satisfied, Prod.mk.injEq] at search
      exact ⟨rfl, search.2.symm⟩
  | cons first before =>
      cases split
      rw [datagrams, List.map_cons, Option.map_some, discover_found _ satisfied] at waited
      cases waited

/-- The request names what the beacon announced, also with the address in the handle. -/
theorem heard_request {beacon : Beacon} (whole : 32 ∉ beacon.name.bytes) (start : Discovery) (host : UInt32) :
    let handle := (start.hear beacon.text).handle.storeAt ipField.offset (inetNtop host ++ [0])
    handlePort handle = beacon.port ∧
      { start.hear beacon.text with handle := handle }.request = getLine beacon.handle := by
  have read := beacon_held whole start
  have fits := inetNtop_fits host
  have before : serialField.offset + (beacon.serial.bytes.length + 1) ≤ ipField.offset := by
    have short := beacon.serialFits
    simp only [serialField, ipField]
    omega
  have words : ascii " VMTP1.0\nProtocol: EV3" = ascii " VMTP1.0\nProtocol: " ++ ascii "EV3" := by decide +kernel
  constructor
  · rw [port_apart fits, handlePort, read.port,
      leValue_leBytes_of_lt (Nat.lt_trans beacon.port.toNat_lt (by decide)), UInt16.ofNat_toNat]
  · rw [beacon_request ((storeAt_load_before _ before).trans read.serial)
      ((ip_apart fits (by decide) 4).trans read.protocol), words, getLine]
    simp only [List.append_assoc]
    rfl

/-- When the first datagram is a beacon that reads, a `tcp_open` that succeeds has connected to the port it announces on
the host it came from, and has asked for its serial there. -/
theorem tcpOpen_hears {beacon : Beacon} (whole : 32 ∉ beacon.name.bytes) (undotted : 46 ∉ beacon.serial.bytes)
    {serial : Option CString} (asked : serial = none ∨ serial = some beacon.serial)
    (inetPton : CString → Option UInt32) (junk : Memory × Memory) {announcer : Address}
    {later : List (Option (Bytes × Address))} {network final : Network} {opened : TcpOpened}
    (first : network.incoming = some (beacon.text, announcer) :: later)
    (run : tcpOpen inetPton junk serial { network with calls := [] } = (some (some opened), final)) :
    opened.address = ⟨announcer.host, beacon.port⟩ ∧ ∃ udp, final.calls.filter NetCall.talks =
      [.uses udp (.sends [0] announcer), .uses opened.fd (.connects opened.address),
        .uses opened.fd (.sends (getLine beacon.handle) opened.address)] := by
  have ends := tcpOpen_returns inetPton junk serial network.incoming { network with calls := [] } ⟨⟨rfl, rfl⟩, rfl⟩
  rw [Proc.Ends, run, first] at ends
  obtain ⟨wave, request, reached, port, holds⟩ := ends
  cases reached with
  | direct given dotted =>
      rcases asked with rfl | rfl
      · cases given
      · cases given
        exact absurd dotted undotted
  | @found udp state sender _ _ _ ends host handle asks =>
      obtain ⟨rfl, rfl⟩ := searchEnds_first whole asked ends
      obtain ⟨number, line⟩ := heard_request whole ⟨junk.1, junk.2, []⟩ sender.host
      rw [← handle, port] at number
      rw [asks, handle, line] at holds
      exact ⟨by rw [← host, ← number], udp, holds.talk⟩

/-- A brick that answers from where its beacon came. -/
def answering : Network where
  incoming := [some (factoryBeacon.text, ⟨0x1700A8C0, 3015⟩)]
  connected := true
  confirmation := some (ascii "Accept:EV340\r\n\r\n")

theorem answering_opens (inetPton : CString → Option UInt32) :
    ∃ opened final, tcpOpen inetPton (fun _ => 0, fun _ => 0) none answering = (some (some opened), final) := by
  have returned : ((tcpOpen inetPton (fun _ => 0, fun _ => 0) none answering).1.bind id).isSome = true := by
    show ((tcpOpen (fun _ => none) (fun _ => 0, fun _ => 0) none answering).1.bind id).isSome = true
    decide +kernel
  rcases run : tcpOpen inetPton (fun _ => 0, fun _ => 0) none answering with ⟨_ | _ | opened, final⟩
  · rw [run] at returned
    cases returned
  · rw [run] at returned
    cases returned
  · exact ⟨opened, final, rfl⟩

theorem tcpOpen_hears_factory : ∃ opened final, tcpOpen (fun _ => none) (fun _ => 0, fun _ => 0) none answering =
    (some (some opened), final) ∧ opened.address = ⟨0x1700A8C0, 5555⟩ := by
  obtain ⟨opened, final, run⟩ := answering_opens fun _ => none
  have heard := @tcpOpen_hears factoryBeacon (by decide +kernel) (by decide +kernel) none (Or.inl rfl) _ _
    ⟨0x1700A8C0, 3015⟩ [] answering final opened rfl run
  exact ⟨opened, final, run, heard.1⟩

end Ev3duder
